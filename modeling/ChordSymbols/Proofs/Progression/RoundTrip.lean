import ChordSymbols.Proofs.Progression.Compilation

/-!
# Formatting and compiling progressions

A list of chords is formatted unless it holds a chord without a name, and its
text compiles to the same chords, up to the idle modes of applied ones. Chords
that were compiled have names and no idle modes, so for them the text is exact.
-/

namespace ChordSymbols

/-- A simple chord in the mode without a letter, where that mode is not the default. -/
def Chord.Nameless (c : Chord) : Prop :=
  c.secondary = none ∧ c.mode = .ionian ∧ c.degree ≠ .one

theorem Chord.symbol_eq_error {c : Chord} : (∃ e, c.symbol = .error e) ↔ c.Nameless := by
  obtain ⟨m, d, f, secondary⟩ := c
  constructor
  · rintro ⟨e, failed⟩
    cases secondary with
    | some s =>
      rw [symbol_applied] at failed
      cases failed
    | none =>
      by_cases default : m = d.defaultMode
      · subst default
        rw [symbol_plain] at failed
        cases failed
      · cases letter : m.letter? with
        | some l =>
          rw [symbol_lettered f default letter] at failed
          cases failed
        | none =>
          have ionian := Mode.letter?_eq_none.mp letter
          subst ionian
          exact ⟨rfl, rfl, fun one => default (Degree.defaultMode_eq_ionian.mpr one).symm⟩
  · rintro ⟨simple, ionian, other⟩
    cases simple
    cases ionian
    have notDefault : Mode.ionian ≠ d.defaultMode :=
      fun same => other (Degree.defaultMode_eq_ionian.mp same.symm)
    exact ⟨_, symbol_unspellable f notDefault rfl⟩

theorem formatProgression_eq_ok {cs : List Chord} {t : Text} :
    formatProgression cs = .ok t ↔
      ∃ ts, List.Forall₂ (fun c s => c.symbol = .ok s) cs ts ∧ joinSymbols ts = t := by
  rw [formatProgression, map_eq_ok]
  constructor
  · rintro ⟨ts, rendered, joined⟩
    exact ⟨ts, mapM_eq_ok.mp rendered, joined⟩
  · rintro ⟨ts, rendered, joined⟩
    exact ⟨ts, mapM_eq_ok.mpr rendered, joined⟩

theorem formatProgression_eq_error {cs : List Chord} :
    (∃ e, formatProgression cs = .error e) ↔ ∃ c ∈ cs, c.Nameless := by
  have members : (∃ e, cs.mapM Chord.symbol = .error e) ↔ ∃ c ∈ cs, c.Nameless := by
    simp only [mapM_eq_error, Chord.symbol_eq_error]
  rw [← members, formatProgression]
  cases cs.mapM Chord.symbol with
  | error e => simp [Except.map]
  | ok ts => simp [Except.map]

theorem rendered_parses {cs : List Chord} {ts : List Text}
    (rendered : List.Forall₂ (fun c s => c.symbol = .ok s) cs ts) :
    List.Forall₂ Parses ts (cs.map Chord.reread) := by
  induction rendered with
  | nil => exact .nil
  | cons first rest ih => exact .cons (parseSymbol_eq_ok.mpr (.of_symbol first)) ih

theorem Parses.items {ts : List Text} {cs : List Chord} (parsed : List.Forall₂ Parses ts cs) :
    ∀ t ∈ ts, IsItem t := by
  intro t ht
  obtain ⟨c, -, accepted⟩ := exists_right_of_mem parsed t ht
  exact (parseSymbol_eq_ok.mp accepted).isItem

/-- The text of formatted chords compiles, under either strictness, to the chords reread. -/
theorem compile_formatted {cs : List Chord} {t : Text} (formatted : formatProgression cs = .ok t)
    (strict : Bool) : ∃ symbols, (compileProgression strict t).outcome =
      .ok ⟨cs.map Chord.reread, symbols, []⟩ := by
  obtain ⟨ts, rendered, rfl⟩ := formatProgression_eq_ok.mp formatted
  have parsed := rendered_parses rendered
  refine ⟨ts, ?_⟩
  rw [compileProgression, splitProgression_joinSymbols (Parses.items parsed)]
  exact compileFrom_complete parsed

theorem Parses.reread {ts : List Text} {cs : List Chord} (parsed : List.Forall₂ Parses ts cs) :
    cs.map Chord.reread = cs := by
  induction parsed with
  | nil => rfl
  | cons first rest ih =>
    rw [List.map_cons, (parseSymbol_eq_ok.mp first).reread, ih]

theorem Parses.named {ts : List Text} {cs : List Chord} (parsed : List.Forall₂ Parses ts cs) :
    ∀ c ∈ cs, ¬ c.Nameless := by
  intro c hc nameless
  obtain ⟨s, -, accepted⟩ := exists_left_of_mem parsed c hc
  obtain ⟨t, rendered, -⟩ := (parseSymbol_eq_ok.mp accepted).symbol_le
  obtain ⟨e, failed⟩ := Chord.symbol_eq_error.mpr nameless
  cases rendered.symm.trans failed

theorem formatProgression_of_named {cs : List Chord} (named : ∀ c ∈ cs, ¬ c.Nameless) :
    ∃ t, formatProgression cs = .ok t := by
  cases formatted : formatProgression cs with
  | ok t => exact ⟨t, rfl⟩
  | error e =>
    obtain ⟨c, hc, nameless⟩ := formatProgression_eq_error.mp ⟨e, formatted⟩
    exact absurd nameless (named c hc)

/-- Formatting fails on the nameless chords alone; what is formatted compiles back, and what
was compiled is formatted to a text that compiles, under either strictness, to the same chords
and formats to itself. -/
theorem format_compile_inverse :
    (∀ cs, (∃ e, formatProgression cs = .error e) ↔ ∃ c ∈ cs, c.Nameless) ∧
      (∀ cs : List Chord, (∀ c ∈ cs, ¬ c.Nameless) → ∃ t r, formatProgression cs = .ok t ∧
        (compileProgression true t).outcome = .ok r ∧ r.skipped = [] ∧
        r.chords = cs.map Chord.reread) ∧
      ∀ strict text r, (compileProgression strict text).outcome = .ok r →
        ∃ t, formatProgression r.chords = .ok t ∧
          ∀ strictly, ∃ again, (compileProgression strictly t).outcome = .ok again ∧
            again.chords = r.chords ∧ formatProgression again.chords = .ok t := by
  refine ⟨fun cs => formatProgression_eq_error, ?_, ?_⟩
  · intro cs named
    obtain ⟨t, formatted⟩ := formatProgression_of_named named
    obtain ⟨symbols, compiled⟩ := compile_formatted formatted true
    exact ⟨t, _, formatted, compiled, rfl, rfl⟩
  · intro strict text r compiled
    have parsed := compileFrom_sound compiled
    obtain ⟨t, formatted⟩ := formatProgression_of_named (Parses.named parsed)
    refine ⟨t, formatted, fun strictly => ?_⟩
    obtain ⟨symbols, recompiled⟩ := compile_formatted formatted strictly
    rw [Parses.reread parsed] at recompiled
    exact ⟨_, recompiled, rfl, formatted⟩

/-- A Dorian applied chord loses its mode, and a bad symbol between others leaves no trace. -/
theorem format_compile_inverse_lossy :
    (∃ t r, formatProgression [⟨.dorian, .five, none, some .seven⟩, ⟨.dorian, .five, none, none⟩]
        = .ok t ∧ (compileProgression true t).outcome = .ok r ∧ r.skipped = [] ∧
      r.chords = [⟨.ionian, .five, none, some .seven⟩, ⟨.dorian, .five, none, none⟩]) ∧
    ∃ t, formatProgression [⟨.mixolydian, .five, none, none⟩] = .ok t ∧
      ∀ strictly, ∃ again, (compileProgression strictly t).outcome = .ok again ∧
        again.chords = [⟨.mixolydian, .five, none, none⟩] ∧
        formatProgression again.chords = .ok t :=
  ⟨format_compile_inverse.2.1
      [⟨.dorian, .five, none, some .seven⟩, ⟨.dorian, .five, none, none⟩]
      (by simp [Chord.Nameless]),
    format_compile_inverse.2.2 false [' ', 'm', '5', ',', '9', ','] _ rfl⟩

end ChordSymbols
