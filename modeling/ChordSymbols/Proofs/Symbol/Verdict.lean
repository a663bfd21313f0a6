import ChordSymbols.Proofs.Symbol.Language
import ChordSymbols.Proofs.Symbol.Lookup
import ChordSymbols.Proofs.Symbol.Tokenizing

/-!
# The verdict on a symbol

A text has one of six verdicts. They are given here by the text and its lexemes,
each under the condition that those before it do not apply, and parsing reaches
the one that does. A text with several faults is therefore reported for the
first of them in this order, not for the first of them from the left.
-/

namespace ChordSymbols

inductive Verdict (s : Text) : Except SymbolError Chord → Prop where
  | foreign {c : Char} {i : Nat} (first : FirstForeign s c i) :
      Verdict s (.error (.invalidCharacter c i))
  | slashes (only : ∀ x ∈ s, x = '/') : Verdict s (.error (.noTokens s))
  | count (legible : Legible s) (many : 3 < tokenTally s) :
      Verdict s (.error (.tokenCount (tokensOf s)))
  | pattern (legible : Legible s) (few : tokenTally s ≤ 3)
      (other : (tokensOf s).map Token.kind ∉ shapes) :
      Verdict s (.error (.unexpectedPattern (tokensOf s)))
  | unresolved (legible : Legible s) (few : tokenTally s ≤ 3)
      (shaped : (tokensOf s).map Token.kind ∈ shapes) {v : Vocabulary} {code : Text}
      (miss : firstMiss (lookups (tokensOf s)) = some (v, code)) :
      Verdict s (.error (.unresolved v code))
  | chord (legible : Legible s) (few : tokenTally s ≤ 3)
      (shaped : (tokensOf s).map Token.kind ∈ shapes)
      (found : firstMiss (lookups (tokensOf s)) = none) {c : Chord} (spelled : Spells s c) :
      Verdict s (.ok c)

theorem parseSymbol_of_legible {s : Text} (legible : Legible s) :
    parseSymbol s = parseTokens (tokensOf s) := by
  have read := tokenize_eq_tokensOf.mpr ⟨legible, rfl⟩
  rw [parseSymbol, read]
  rfl

theorem parseSymbol_of_unread {s : Text} {e : SymbolError} (unread : tokenize s = .error e) :
    parseSymbol s = .error e := by
  rw [parseSymbol, unread]
  rfl

theorem Legible.length_tokensOf {s : Text} (legible : Legible s) :
    (tokensOf s).length = tokenTally s :=
  legible.lexes.length_eq

theorem Legible.few_iff {s : Text} (legible : Legible s) :
    ¬ ((tokensOf s).length = 0 ∨ 3 < (tokensOf s).length) ↔ tokenTally s ≤ 3 := by
  have filled : (tokensOf s).length ≠ 0 := by
    rw [Ne, List.length_eq_zero_iff]
    exact legible.tokensOf_ne_nil
  rw [legible.length_tokensOf] at filled ⊢
  omega

theorem Verdict.reached {s : Text} {r : Except SymbolError Chord} (verdict : Verdict s r) :
    parseSymbol s = r := by
  cases verdict with
  | foreign first =>
    apply parseSymbol_of_unread
    exact tokenize_eq_error.mpr (.inl ⟨_, _, first, rfl⟩)
  | slashes only =>
    apply parseSymbol_of_unread
    exact tokenize_eq_error.mpr (.inr ⟨only, rfl⟩)
  | count legible many =>
    rw [parseSymbol_of_legible legible]
    apply parseTokens_of_length
    rw [legible.length_tokensOf]
    exact .inr many
  | pattern legible few other =>
    rw [parseSymbol_of_legible legible]
    exact parseTokens_of_not_shape (legible.few_iff.mpr few) other
  | unresolved legible few shaped miss =>
    rw [parseSymbol_of_legible legible]
    exact parseTokens_of_miss shaped miss
  | chord legible few shaped found spelled => exact parseSymbol_eq_ok.mpr spelled

/-- No text is left without a verdict. -/
theorem exists_verdict (s : Text) : ∃ r, Verdict s r := by
  cases read : tokenize s with
  | error e =>
    rcases tokenize_eq_error.mp read with ⟨c, i, first, -⟩ | ⟨only, -⟩
    · exact ⟨_, .foreign first⟩
    · exact ⟨_, .slashes only⟩
  | ok ts =>
    have legible := (tokenize_eq_tokensOf.mp read).1
    by_cases few : tokenTally s ≤ 3
    · by_cases shaped : (tokensOf s).map Token.kind ∈ shapes
      · cases miss : firstMiss (lookups (tokensOf s)) with
        | some q => exact ⟨_, .unresolved legible few shaped miss⟩
        | none =>
          obtain ⟨c, parsed⟩ := parseTokens_of_found shaped miss
          rw [← parseSymbol_of_legible legible] at parsed
          exact ⟨_, .chord legible few shaped miss (parseSymbol_eq_ok.mp parsed)⟩
      · exact ⟨_, .pattern legible few shaped⟩
    · exact ⟨_, .count legible (by omega)⟩

/-- Every text has exactly one verdict, and it is what parsing answers. -/
theorem parse_reaches_verdict (s : Text) :
    (∃! r, Verdict s r) ∧ ∀ r, parseSymbol s = r ↔ Verdict s r := by
  obtain ⟨r, verdict⟩ := exists_verdict s
  constructor
  · refine ⟨r, verdict, fun r' other => ?_⟩
    rw [← other.reached, verdict.reached]
  · intro r'
    constructor
    · rintro rfl
      rwa [verdict.reached]
    · exact Verdict.reached

-- Neither code is known; the degree is reported, though the function stands in front of it.
example : parseSymbol "8/9".toList = .error (.unresolved .numeral "9".toList) := by decide

end ChordSymbols
