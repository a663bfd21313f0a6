import ChordSymbols.Proofs.Symbol.Language
import ChordSymbols.Symbol.Spelling

/-!
# Canonical symbols

Many texts spell one chord: slashes are free, a letter may be in either case,
and the letter of a default mode is idle. The symbol that a chord is rendered
to is one of the shortest among them, and two accepted chords with the same
symbol are the same chord. Chords built from parts are wider: some have no
symbol, and the mode of an applied one is not in its symbol.
-/

namespace ChordSymbols

namespace Chord

/-- The chord that the symbol of a chord spells: an applied one is Ionian there. -/
def reread (c : Chord) : Chord :=
  if c.isApplied then { c with mode := .ionian } else c

theorem figureCode_eq (c : Chord) : c.figureCode = figureText c.figure := by
  rw [figureCode]
  cases c.figure <;> rfl

theorem symbol_applied (m : Mode) (d : Degree) (f : Option Figure) (s : Secondary) :
    symbol ⟨m, d, f, some s⟩ = .ok (s.digit :: (figureText f ++ ['/', d.digit])) := by
  simp [symbol, figureCode_eq, Secondary.code]

theorem symbol_plain (d : Degree) (f : Option Figure) :
    symbol ⟨d.defaultMode, d, f, none⟩ = .ok (d.digit :: figureText f) := by
  simp [symbol, figureCode_eq]

theorem symbol_lettered {m : Mode} {d : Degree} {l : Char} (f : Option Figure)
    (other : m ≠ d.defaultMode) (letter : m.letter? = some l) :
    symbol ⟨m, d, f, none⟩ = .ok (l :: d.digit :: figureText f) := by
  simp [symbol, figureCode_eq, other, letter]

theorem symbol_unspellable {m : Mode} {d : Degree} (f : Option Figure)
    (other : m ≠ d.defaultMode) (letter : m.letter? = none) :
    symbol ⟨m, d, f, none⟩ = .error ⟨m, d⟩ := by
  simp [symbol, other, letter]

end Chord

theorem Mode.letter?_eq_none {m : Mode} : m.letter? = none ↔ m = .ionian := by
  cases m <;> decide

theorem Mode.mem_letters {m : Mode} {l : Char} (letter : m.letter? = some l) :
    l ∈ m.letters := by
  cases m <;> cases letter <;> decide

theorem Mode.letter?_of_mem {m : Mode} {l : Char} (letter : l ∈ m.letters) :
    ∃ u, m.letter? = some u := by
  cases m with
  | ionian => cases letter
  | _ => exact ⟨_, rfl⟩

theorem Degree.defaultMode_eq_ionian {d : Degree} : d.defaultMode = .ionian ↔ d = .one := by
  cases d <;> decide

/-- A rendered symbol spells the chord that it was rendered from, up to an idle mode. -/
theorem Spells.of_symbol {c : Chord} {t : Text} (rendered : c.symbol = .ok t) :
    Spells t c.reread := by
  obtain ⟨m, d, f, secondary⟩ := c
  cases secondary with
  | some s =>
    rw [Chord.symbol_applied] at rendered
    cases rendered
    have word := Spells.applied 0 0 0 s f d
    rwa [List.append_assoc] at word
  | none =>
    by_cases default : m = d.defaultMode
    · subst default
      rw [Chord.symbol_plain] at rendered
      cases rendered
      have word := Spells.plain 0 0 d f
      rwa [slashes_zero, List.append_nil] at word
    · cases letter : m.letter? with
      | none =>
        rw [Chord.symbol_unspellable f default letter] at rendered
        cases rendered
      | some l =>
        rw [Chord.symbol_lettered f default letter] at rendered
        cases rendered
        have word := Spells.lettered 0 0 0 (Mode.mem_letters letter) d f
        rwa [slashes_zero, List.append_nil] at word

/-- The modes of accepted chords are settled by the rest: an applied chord is Ionian. -/
theorem Spells.reread {s : Text} {c : Chord} (spelled : Spells s c) : c.reread = c := by
  cases spelled <;> rfl

theorem length_slashes (n : Nat) : (slashes n).length = n :=
  List.length_replicate

/-- No spelling is shorter than the rendered symbol. -/
theorem Spells.symbol_le {s : Text} {c : Chord} (spelled : Spells s c) :
    ∃ t, c.symbol = .ok t ∧ t.length ≤ s.length := by
  cases spelled with
  | @lettered i j k m l letter d f =>
    by_cases default : m = d.defaultMode
    · subst default
      refine ⟨_, Chord.symbol_plain d f, ?_⟩
      simp only [List.length_append, List.length_cons, length_slashes]
      omega
    · obtain ⟨u, upper⟩ := Mode.letter?_of_mem letter
      refine ⟨_, Chord.symbol_lettered f default upper, ?_⟩
      simp only [List.length_append, List.length_cons, length_slashes]
      omega
  | plain i k d f =>
    refine ⟨_, Chord.symbol_plain d f, ?_⟩
    simp only [List.length_append, List.length_cons, length_slashes]
    omega
  | applied i j k s f d =>
    refine ⟨_, Chord.symbol_applied .ionian d f s, ?_⟩
    simp only [List.length_append, List.length_cons, List.length_nil, length_slashes]
    omega

/-- A symbol that tells its chord from all others and that no spelling is shorter than. -/
structure Canonical (c : Chord) (t : Text) : Prop where
  rendered : c.symbol = .ok t
  parsed : parseSymbol t = .ok c
  distinct : ∀ s b, parseSymbol s = .ok b → (b = c ↔ b.symbol = c.symbol)
  shortest : ∀ s, parseSymbol s = .ok c → t.length ≤ s.length

/-- Rendering after parsing is a normal form for all spellings of a chord. -/
theorem parsed_chord_canonical {s : Text} {c : Chord} (parsed : parseSymbol s = .ok c) :
    ∃ t, Canonical c t := by
  have reads : ∀ {s b t}, parseSymbol s = .ok b → b.symbol = .ok t → parseSymbol t = .ok b := by
    intro s b t accepted rendered
    have word := Spells.of_symbol rendered
    rw [(parseSymbol_eq_ok.mp accepted).reread] at word
    exact parseSymbol_eq_ok.mpr word
  obtain ⟨t, rendered, -⟩ := (parseSymbol_eq_ok.mp parsed).symbol_le
  refine ⟨t, rendered, reads parsed rendered, ?_, ?_⟩
  · intro s' b accepted
    constructor
    · rintro rfl
      rfl
    · intro same
      have first := reads accepted (same.trans rendered)
      have second := reads parsed rendered
      exact Except.ok.inj (first.symm.trans second)
  · intro s' accepted
    obtain ⟨u, again, le⟩ := (parseSymbol_eq_ok.mp accepted).symbol_le
    cases rendered.symm.trans again
    exact le

/-- The letter, its case and all slashes are idle in this spelling of `664`. -/
theorem parsed_chord_canonical_idle_letter :
    parseSymbol ['/', 'B', '/', '6', '6', '4', '/'] = .ok ⟨.aeolian, .six, some .sixFour, none⟩ ∧
      ∃ t, Canonical ⟨.aeolian, .six, some .sixFour, none⟩ t :=
  ⟨rfl, parsed_chord_canonical (s := ['/', 'B', '/', '6', '6', '4', '/']) rfl⟩

end ChordSymbols
