import ChordSymbols.Proofs.Yaml.Escapes
import ChordSymbols.Proofs.Yaml.Folding

/-!
# Scalars are read back

The first character of a scalar tells its style: a text that needs no quotes does
not begin with one. A reader that goes by it gets the text back, and takes it for
a text, since one without quotes is no number, truth value or the like. So a
scalar is written for one text only.
-/

namespace ChordSymbols.Yaml

/-- The text of a scalar; without quotes it may be no text but another value. -/
def readScalar : Text → Option Text
  | [] => none
  | c :: rest =>
    if c = apostrophe then some (undoubled false (joined 0 rest.dropLast))
    else if c = doubleQuote then some (unescaped .text rest.dropLast)
    else if otherValue.takes (joined 0 (c :: rest)) then none
    else some (joined 0 (c :: rest))

theorem styleOf_cases (t : Text) :
    (styleOf t = .plain ∧ allowsPlain t = true ∧ otherValue.takes t = false) ∨
      (styleOf t = .single ∧ allowsSingle t = true) ∨ styleOf t = .double := by
  rw [styleOf]
  by_cases plain : (allowsPlain t && !otherValue.takes t) = true
  · rw [if_pos plain]
    rw [Bool.and_eq_true, Bool.not_eq_true'] at plain
    exact .inl ⟨rfl, plain⟩
  · rw [if_neg plain]
    by_cases single : allowsSingle t = true
    · rw [if_pos single]
      exact .inr (.inl ⟨rfl, single⟩)
    · rw [if_neg single]
      exact .inr (.inr rfl)

theorem mixedGap_of_allowsSingle {t : Text} (allowed : allowsSingle t = true) :
    mixedGap t = false := by
  rw [allowsSingle, Bool.and_eq_true, Bool.not_eq_true'] at allowed
  exact allowed.2

/-- The empty text stands for nothing, so it is never without quotes. -/
theorem takes_empty : otherValue.takes [] = true := by
  decide

/-- Without quotes a text is written with its own first character, which is no quote. -/
theorem folded_plain {t : Text} (allowed : allowsPlain t = true)
    (same : otherValue.takes t = false) (indent column : Nat) :
    ∃ c rest, folded ([·]) indent ' ' column t = c :: rest ∧ c ≠ apostrophe ∧ c ≠ doubleQuote := by
  cases t with
  | nil => exact absurd (takes_empty.symm.trans same) (by decide)
  | cons c t =>
    simp only [allowsPlain, Bool.and_eq_true, Bool.not_eq_true', indicatorInFront,
      Bool.or_eq_false_iff, leadingIndicators, List.contains_cons, beq_eq_false_iff_ne] at allowed
    obtain ⟨⟨⟨⟨⟨-, inLine⟩, -⟩, -⟩, ⟨⟨⟨quote, double, -⟩, -⟩, -⟩, -⟩, -⟩ := allowed
    refine ⟨c, folded ([·]) indent c (column + 1) t, ?_, quote, double⟩
    rw [folded, if_neg (fun folds => folds.2.1 rfl), if_neg (fun feed => inLine.1 feed.symm)]
    rfl

/-- A written scalar is read back as the text. -/
theorem readScalar_scalar {indent : Nat} (narrow : indent < lineWidth) (column : Nat) (t : Text) :
    readScalar (scalar indent column t) = some t := by
  have within {last : Char} (t : Text) (other : last ≠ '\n') : Pending 0 last t := .inside other
  rcases styleOf_cases t with ⟨style, allowed, same⟩ | ⟨style, allowed⟩ | style
  · obtain ⟨c, rest, written, quote, double⟩ := folded_plain allowed same indent column
    have single : allowsSingle t = true := by
      simp only [allowsPlain, Bool.and_eq_true] at allowed
      exact allowed.1.1.1.1.1
    have read : joined 0 (c :: rest) = t := by
      rw [← written, joined_folded seamless_same indent (mixedGap_of_allowsSingle single) column
        (within t (by decide))]
      simp [gap]
    rw [scalar, style]
    dsimp only
    rw [written, readScalar, if_neg quote, if_neg double, read, same]
    rfl
  · have read : joined 0 (folded inSingle indent ' ' (column + 1) t) = t.flatMap inSingle :=
      joined_folded seamless_inSingle indent (mixedGap_of_allowsSingle allowed) (column + 1)
        (within t (by decide))
    rw [scalar, style]
    dsimp only
    rw [List.cons_append, readScalar, if_pos rfl, List.dropLast_concat, read, undoubled_inSingle]
  · rw [scalar, style]
    dsimp only
    rw [List.cons_append, readScalar, if_neg (by decide), if_pos rfl, List.dropLast_concat,
      unescaped_foldedDouble narrow]

/-- Different texts are written as different scalars, wherever these stand. -/
theorem scalar_unambiguous {i j m n : Nat} (hi : i < lineWidth) (hj : j < lineWidth)
    {s t : Text} (same : scalar i m s = scalar j n t) : s = t := by
  have read := readScalar_scalar hi m s
  rw [same, readScalar_scalar hj n t] at read
  exact (Option.some.inj read).symm

end ChordSymbols.Yaml
