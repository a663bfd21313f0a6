import ChordSymbols.Document.Summary
import ChordSymbols.Proofs.Document.Validation
import ChordSymbols.Proofs.Progression.RoundTrip

/-!
# Documents of progressions

A progression becomes a document of its symbols. The check of these symbols and
a strict compilation of the progression are one and the same traversal, so that
they stop at the same symbol, and what the document compiles to is what the
progression compiles to. Only a progression without symbols tells them apart:
it compiles to no chords, and there is no document of it.
-/

namespace ChordSymbols

/-- The draft of a progression, with the other fields as given. -/
def Draft.ofProgression (t : Text) (name tonic tempo : Value) : Draft :=
  ⟨none, some name, some tonic, some tempo, some (.list ((splitProgression t).map .text))⟩

theorem map_strip_splitProgression (t : Text) :
    (splitProgression t).map strip = splitProgression t := by
  have each : ∀ s ∈ splitProgression t, strip s = id s := by
    intro s hs
    exact (isItem_of_mem_splitProgression s hs).stripped
  rw [List.map_congr_left each, List.map_id]

theorem outcome_compileProgression_true (t : Text) :
    (compileProgression true t).outcome =
      ((splitProgression t).mapM parseSymbol).map fun cs => ⟨cs, splitProgression t, []⟩ :=
  outcome_compileFrom_true 0 (splitProgression t)

/-- The check of the symbols of a progression is its strict compilation. -/
theorem outcome_checkChords_split {t : Text} (filled : splitProgression t ≠ []) :
    (checkChords (some (.list ((splitProgression t).map .text)))).outcome =
      ((compileProgression true t).outcome.map Compiled.symbols).mapError
        fun e => [⟨.chords, none, .symbol e⟩] := by
  rw [outcome_checkChords_texts, if_neg filled, map_strip_splitProgression,
    outcome_compileProgression_true]
  cases (splitProgression t).mapM parseSymbol <;> rfl

theorem checkChords_split_eq_ok {t : Text} {symbols : List Text} :
    (checkChords (some (.list ((splitProgression t).map .text)))).outcome = .ok symbols ↔
      splitProgression t ≠ [] ∧
        ∃ r, (compileProgression true t).outcome = .ok r ∧ r.symbols = symbols := by
  by_cases empty : splitProgression t = []
  · rw [outcome_checkChords_texts, if_pos empty]
    simp [empty]
  · rw [outcome_checkChords_split empty, mapError_eq_ok, map_eq_ok]
    simp [empty]

/-- What a strict compilation lists is all of the progression, and its chords have names. -/
theorem compileProgression_true_ok {t : Text} {r : Compiled}
    (compiled : (compileProgression true t).outcome = .ok r) :
    r.symbols = splitProgression t ∧ (splitProgression t).mapM parseSymbol = .ok r.chords ∧
      ∃ text, formatProgression r.chords = .ok text := by
  have sound := compileFrom_sound compiled
  rw [outcome_compileProgression_true, map_eq_ok] at compiled
  obtain ⟨cs, parsed, rfl⟩ := compiled
  exact ⟨rfl, parsed, formatProgression_of_named (Parses.named sound)⟩

theorem compileProgression_true_length {t : Text} {r : Compiled}
    (compiled : (compileProgression true t).outcome = .ok r) :
    r.chords.length = (splitProgression t).length := by
  obtain ⟨-, parsed, -⟩ := compileProgression_true_ok compiled
  exact (mapM_eq_ok.mp parsed).length_eq.symm

namespace Document

variable {d : Document} {cs : List Chord}

theorem outcome_compile (d : Document) : d.compile.outcome = d.chords.mapM parseSymbol :=
  outcome_compileEach d.chords

theorem outcome_canonical (compiled : d.compile.outcome = .ok cs) :
    d.canonical.outcome = (formatProgression cs).mapError .unspellable := by
  rw [canonical, Run.outcome_bind, Run.outcome_mapError, compiled]
  rfl

end Document

/-- The fields that make a document of a progression. -/
theorem validate_ofProgression_eq_ok {t : Text} {name tonic tempo : Value} {d : Document} :
    (Draft.ofProgression t name tonic tempo).validate.outcome = .ok d ↔
      (name = .text d.name ∧ d.name ≠ []) ∧
      (tonic = .text d.tonic ∧ ∃ p, PitchClass.parse d.tonic = .ok p) ∧
      tempoOfValue tempo = .ok d.tempo ∧
      splitProgression t ≠ [] ∧
        ∃ r, (compileProgression true t).outcome = .ok r ∧ r.symbols = d.chords := by
  have schema : checkSchema none = .ok () := rfl
  have pace : checkTempo (some tempo) = tempoOfValue tempo := rfl
  rw [Draft.validate_eq_ok, Draft.ofProgression]
  simp only [schema, pace, checkName_eq_ok, checkTonic_eq_ok, checkChords_split_eq_ok, true_and]

section Fields

variable {t name tonic : Text} {tempo : Int} {p : PitchClass} {d : Document}

/-- With a name, a tonic and a tempo that pass, it is for the symbols to decide. -/
theorem validate_ofProgression (named : name ≠ []) (keyed : PitchClass.parse tonic = .ok p)
    (slow : slowestTempo ≤ tempo) (fast : tempo ≤ fastestTempo) :
    (Draft.ofProgression t (.text name) (.text tonic) (.whole tempo)).validate.outcome =
      (checkChords (some (.list ((splitProgression t).map .text)))).outcome.map
        fun symbols => ⟨name, tonic, tempo, symbols⟩ := by
  have schema : checkSchema none = .ok () := rfl
  have filled : checkName (some (.text name)) = .ok name := checkName_eq_ok.mpr ⟨rfl, named⟩
  have key : checkTonic (some (.text tonic)) = .ok tonic :=
    checkTonic_eq_ok.mpr ⟨rfl, p, keyed⟩
  have pace : checkTempo (some (.whole tempo)) = .ok tempo :=
    tempoOfValue_eq_ok.mpr ⟨rfl, slow, fast⟩
  cases checked : (checkChords (some (.list ((splitProgression t).map .text)))).outcome with
  | ok symbols => exact Draft.validate_eq_ok.mpr ⟨schema, filled, key, pace, checked⟩
  | error faults =>
    cases validated :
        (Draft.ofProgression t (.text name) (.text tonic) (.whole tempo)).validate.outcome with
    | ok d =>
      obtain ⟨-, -, -, -, passed⟩ := Draft.validate_eq_ok.mp validated
      cases checked.symm.trans passed
    | error found =>
      have all := Draft.faults_of_refused validated
      simp only [Draft.faults, Draft.ofProgression, schema, filled, key, pace, checked] at all
      rw [all]
      rfl

/-- A progression has a document exactly if it has symbols and compiles strictly; the document
then comes to what the progression comes to. A progression with symbols that does not compile is
refused for the fault that ends its compilation, and for nothing else. -/
theorem document_agrees_with_progression (t : Text) (named : name ≠ [])
    (keyed : PitchClass.parse tonic = .ok p) (slow : slowestTempo ≤ tempo)
    (fast : tempo ≤ fastestTempo) :
    ((∃ d, (Draft.ofProgression t (.text name) (.text tonic) (.whole tempo)).validate.outcome =
        .ok d) ↔
      splitProgression t ≠ [] ∧ ∃ r, (compileProgression true t).outcome = .ok r) ∧
    (∀ d, (Draft.ofProgression t (.text name) (.text tonic) (.whole tempo)).validate.outcome =
        .ok d →
      ∃ r, (compileProgression true t).outcome = .ok r ∧ d = ⟨name, tonic, tempo, r.symbols⟩ ∧
        d.compile.outcome = .ok r.chords ∧
        ∃ text, d.canonical.outcome = .ok text ∧ formatProgression r.chords = .ok text) ∧
    (splitProgression t ≠ [] → ∀ e, (compileProgression true t).outcome = .error e →
      (Draft.ofProgression t (.text name) (.text tonic) (.whole tempo)).validate.outcome =
          .error [⟨.chords, none, .symbol e⟩] ∧
        (Fault.symbol e).message = "Value error, " ++ e.message) := by
  rw [validate_ofProgression named keyed slow fast]
  by_cases filled : splitProgression t = []
  · rw [outcome_checkChords_texts, if_pos filled]
    simp [filled, Except.map]
  · rw [outcome_checkChords_split filled]
    cases compiled : (compileProgression true t).outcome with
    | error e =>
      refine ⟨?_, ?_, ?_⟩
      · simp [Except.map, Except.mapError]
      · intro d made
        cases made
      · intro _ e' same
        cases same
        exact ⟨rfl, rfl⟩
    | ok r =>
      obtain ⟨symbols, parsed, text, formatted⟩ := compileProgression_true_ok compiled
      refine ⟨?_, ?_, ?_⟩
      · simp [filled, Except.map, Except.mapError]
      · intro d made
        cases made
        have again : (⟨name, tonic, tempo, r.symbols⟩ : Document).compile.outcome = .ok r.chords := by
          rw [Document.outcome_compile, symbols, parsed]
        refine ⟨r, rfl, rfl, again, text, ?_, formatted⟩
        rw [Document.outcome_canonical again, formatted]
        rfl
      · intro _ e failed
        cases failed

/-- Blanks and empty places do not count, and of two bad symbols the first is reported. -/
theorem document_agrees_with_progression_two_bad :
    (∃ d, (Draft.ofProgression [' ', '1', ',', ',', '4', ' '] (.text ['a']) (.text ['C'])
        (.whole 120)).validate.outcome = .ok d ∧ d.chords = [['1'], ['4']]) ∧
      (Draft.ofProgression ['1', ',', '9', ',', 'x'] (.text ['a']) (.text ['C'])
        (.whole 120)).validate.outcome =
          .error [⟨.chords, none, .symbol (.unresolved .numeral ['9'])⟩] := by
  have named : ['a'] ≠ [] := by decide
  have keyed : PitchClass.parse ['C'] = .ok 0 := rfl
  have slow : slowestTempo ≤ 120 := by decide
  have fast : 120 ≤ fastestTempo := by decide
  constructor
  · obtain ⟨accepted, comesTo, -⟩ :=
      document_agrees_with_progression [' ', '1', ',', ',', '4', ' '] named keyed slow fast
    obtain ⟨d, made⟩ := accepted.mpr ⟨by decide, _, rfl⟩
    obtain ⟨r, compiled, rfl, -⟩ := comesTo d made
    cases compiled
    exact ⟨_, made, rfl⟩
  · obtain ⟨-, -, refused⟩ :=
      document_agrees_with_progression ['1', ',', '9', ',', 'x'] named keyed slow fast
    exact (refused (by decide) _ rfl).1

end Fields

end ChordSymbols
