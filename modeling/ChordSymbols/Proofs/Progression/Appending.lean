import ChordSymbols.Proofs.Progression.RoundTrip

/-!
# Appending symbols

A call appends one symbol to a text, or refuses it and leaves the text as it was.
The symbol is refused unless it parses, so that it stands for itself between
commas and the new text has exactly one symbol more. What was there before is
tidied but not looked at: symbols that do not parse stay where they are, and only
a text that compiled strictly before does so after any number of calls.
-/

namespace ChordSymbols

section OneCall

variable {text symbol extended : Text}

theorem appendSymbol_eq_ok :
    (appendSymbol text symbol).outcome = .ok extended ↔
      (∃ c, Parses (strip symbol) c) ∧
        extended = joinSymbols (splitProgression text ++ [strip symbol]) := by
  have step : (appendSymbol text symbol).outcome = (parseSymbol (strip symbol)).map
      fun _ => joinSymbols (splitProgression text ++ [strip symbol]) := by
    rw [appendSymbol, Run.outcome_bind, outcome_compileSymbol]
    cases parseSymbol (strip symbol) <;> rfl
  rw [step, map_eq_ok]
  constructor
  · rintro ⟨c, parsed, rfl⟩
    exact ⟨⟨c, parsed⟩, rfl⟩
  · rintro ⟨⟨c, parsed⟩, rfl⟩
    exact ⟨c, parsed, rfl⟩

theorem appendSymbol_succeeds_iff :
    (∃ extended, (appendSymbol text symbol).outcome = .ok extended) ↔
      ∃ c, Parses (strip symbol) c := by
  constructor
  · rintro ⟨extended, appended⟩
    exact (appendSymbol_eq_ok.mp appended).1
  · intro parsed
    exact ⟨_, appendSymbol_eq_ok.mpr ⟨parsed, rfl⟩⟩

/-- The new text has the symbols of the old one and the appended one behind them. -/
theorem split_appendSymbol (appended : (appendSymbol text symbol).outcome = .ok extended) :
    splitProgression extended = splitProgression text ++ [strip symbol] := by
  obtain ⟨⟨c, parsed⟩, rfl⟩ := appendSymbol_eq_ok.mp appended
  apply splitProgression_joinSymbols
  intro x hx
  rcases List.mem_append.mp hx with old | new
  · exact isItem_of_mem_splitProgression x old
  · obtain rfl := List.mem_singleton.mp new
    exact (parseSymbol_eq_ok.mp parsed).isItem

end OneCall

/-- The text after calls in a row, each on the text that the calls before it left. -/
def appendAll (text : Text) : List Text → Text
  | [] => text
  | symbol :: calls =>
    match (appendSymbol text symbol).outcome with
    | .ok extended => appendAll extended calls
    | .error _ => appendAll text calls

/-- The symbols of the calls in a row that are not refused, without the blanks at their ends. -/
def appendedSymbols (text : Text) : List Text → List Text
  | [] => []
  | symbol :: calls =>
    match (appendSymbol text symbol).outcome with
    | .ok extended => strip symbol :: appendedSymbols extended calls
    | .error _ => appendedSymbols text calls

section Calls

variable (text : Text) (calls : List Text)

theorem split_appendAll :
    splitProgression (appendAll text calls) =
      splitProgression text ++ appendedSymbols text calls := by
  induction calls generalizing text with
  | nil => simp [appendAll, appendedSymbols]
  | cons symbol calls ih =>
    rw [appendAll, appendedSymbols]
    cases called : (appendSymbol text symbol).outcome with
    | error e => exact ih text
    | ok extended =>
      have first := split_appendSymbol called
      have rest := ih extended
      rw [first, List.append_assoc] at rest
      exact rest

theorem appendedSymbols_parse : ∃ cs, List.Forall₂ Parses (appendedSymbols text calls) cs := by
  induction calls generalizing text with
  | nil => exact ⟨[], .nil⟩
  | cons symbol calls ih =>
    rw [appendedSymbols]
    cases called : (appendSymbol text symbol).outcome with
    | error e => exact ih text
    | ok extended =>
      obtain ⟨⟨c, parsed⟩, -⟩ := appendSymbol_eq_ok.mp called
      obtain ⟨cs, rest⟩ := ih extended
      exact ⟨c :: cs, .cons parsed rest⟩

end Calls

/-- A text whose symbols are those of another and some that parse compiles as the other does,
with their chords behind. -/
theorem compileProgression_append (strict : Bool) {before after : Text} {ys : List Text}
    {cs : List Chord} (split : splitProgression after = splitProgression before ++ ys)
    (parsed : List.Forall₂ Parses ys cs) :
    (compileProgression strict after).outcome =
      (compileProgression strict before).outcome.map (·.append ⟨cs, ys, []⟩) := by
  rw [compileProgression, split, compileFrom_append parsed]
  rfl

theorem compileProgression_nil {strict : Bool} :
    (compileProgression strict []).outcome = .ok {} := by
  rw [compileProgression, splitProgression_nil]
  rfl

theorem appendAll_strict {text : Text}
    (compiles : ∃ r, (compileProgression true text).outcome = .ok r) (calls : List Text) :
    ∃ r, (compileProgression true (appendAll text calls)).outcome = .ok r := by
  obtain ⟨r, compiled⟩ := compiles
  obtain ⟨cs, parsed⟩ := appendedSymbols_parse text calls
  have more := compileProgression_append true (split_appendAll text calls) parsed
  rw [compiled] at more
  exact ⟨_, more⟩

/-- A call succeeds exactly for a symbol that parses. After any calls the text splits into its
first symbols and those appended; leniently it compiles to its first chords and one more for each
of those, with the same symbols put aside at the same places; and strictly it compiles if it did
at first, as the empty text does. -/
theorem append_run_invariant (start : Text) (calls : List Text) :
    (∀ text symbol, (∃ extended, (appendSymbol text symbol).outcome = .ok extended) ↔
        ∃ c, parseSymbol (strip symbol) = .ok c) ∧
      splitProgression (appendAll start calls) =
        splitProgression start ++ appendedSymbols start calls ∧
      (∃ before chords, (compileProgression false start).outcome = .ok before ∧
        List.Forall₂ Parses (appendedSymbols start calls) chords ∧
        (compileProgression false (appendAll start calls)).outcome =
          .ok ⟨before.chords ++ chords, before.symbols ++ appendedSymbols start calls,
            before.skipped⟩) ∧
      ((∃ before, (compileProgression true start).outcome = .ok before) →
        ∃ after, (compileProgression true (appendAll start calls)).outcome = .ok after) ∧
      ∃ after, (compileProgression true (appendAll [] calls)).outcome = .ok after := by
  refine ⟨fun text symbol => appendSymbol_succeeds_iff, split_appendAll start calls, ?_,
    fun compiled => appendAll_strict compiled calls,
    appendAll_strict ⟨{}, compileProgression_nil⟩ calls⟩
  obtain ⟨before, compiled⟩ : ∃ before, (compileProgression false start).outcome = .ok before :=
    compileFrom_lenient_ok 0 (splitProgression start)
  obtain ⟨cs, parsed⟩ := appendedSymbols_parse start calls
  have more := compileProgression_append false (split_appendAll start calls) parsed
  rw [compiled] at more
  refine ⟨before, cs, compiled, parsed, more.trans ?_⟩
  simp [Except.map, Compiled.append]

/-- Of three calls the second is refused; the bad symbol stays at its place, between the others. -/
theorem append_run_invariant_around_bad_symbol :
    splitProgression (appendAll [' ', '1', ',', ',', 'x'] [[' ', 'm', '5'], ['9'], ['4', '/']]) =
        [['1'], ['x'], ['m', '5'], ['4', '/']] ∧
      (∃ r, (compileProgression false
          (appendAll [' ', '1', ',', ',', 'x'] [[' ', 'm', '5'], ['9'], ['4', '/']])).outcome = .ok r ∧
        r.symbols = [['1'], ['m', '5'], ['4', '/']] ∧ r.skipped.map (·.index) = [1]) ∧
      (∃ r, (compileProgression true ['1']).outcome = .ok r) ∧
      ∃ r, (compileProgression true
        (appendAll ['1'] [[' ', 'm', '5'], ['9'], ['4', '/']])).outcome = .ok r := by
  obtain ⟨-, split, ⟨before, chords, first, -, lenient⟩, -⟩ :=
    append_run_invariant [' ', '1', ',', ',', 'x'] [[' ', 'm', '5'], ['9'], ['4', '/']]
  cases first
  have strict : ∃ r, (compileProgression true ['1']).outcome = .ok r := ⟨_, rfl⟩
  exact ⟨split, ⟨_, lenient, rfl, rfl⟩, strict,
    (append_run_invariant ['1'] [[' ', 'm', '5'], ['9'], ['4', '/']]).2.2.2.1 strict⟩

end ChordSymbols
