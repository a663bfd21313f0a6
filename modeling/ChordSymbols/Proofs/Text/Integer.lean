import Mathlib.Algebra.Group.Nat.Defs
import Mathlib.Data.Nat.Basic
import ChordSymbols.Text.Integer
import ChordSymbols.Proofs.Text.Stripping

/-!
# Integers that are read and shown

What can be read has few enough digits to be shown, and what can be shown is read
back from its decimal digits. So the integers that some text gives are exactly
those within the limit, and a decimal text gives the integer it was written from.
-/

namespace ChordSymbols

variable {t : Text} {c : Char}

theorem digitValue?_lt {d : Nat} (read : digitValue? c = some d) : d < 10 := by
  obtain ⟨z, found, rfl⟩ := Option.map_eq_some_iff.mp read
  have within := List.find?_some found
  simp only [Bool.and_eq_true, decide_eq_true_eq] at within
  omega

/-- Every digit is below ten, and there is one. -/
theorem digitRun?_digits {ds : List Nat} (read : digitRun? t = some ds) : ∀ d ∈ ds, d < 10 := by
  induction t using digitRun?.induct generalizing ds with
  | case1 => cases read
  | case2 c =>
    obtain ⟨d, value, rfl⟩ := Option.map_eq_some_iff.mp read
    intro d' member
    rw [List.mem_singleton.mp member]
    exact digitValue?_lt value
  | case3 c cs ih | case4 c cs _ _ ih =>
    rw [digitRun?] at read
    · obtain ⟨d, value, read⟩ := Option.bind_eq_some_iff.mp read
      obtain ⟨rest, readRest, same⟩ := Option.bind_eq_some_iff.mp read
      cases same
      intro d' member
      rcases List.mem_cons.mp member with rfl | later
      · exact digitValue?_lt value
      · exact ih readRest d' later
    all_goals assumption

theorem ofDigits_concat (ds : List Nat) (d : Nat) :
    ofDigits (ds ++ [d]) = 10 * ofDigits ds + d := by
  rw [ofDigits, List.foldl_append]
  rfl

theorem ofDigits_lt {ds : List Nat} (small : ∀ d ∈ ds, d < 10) :
    ofDigits ds < 10 ^ ds.length := by
  induction ds using List.reverseRecOn with
  | nil => decide
  | append_singleton ds d ih =>
    have front := ih fun x member => small x (List.mem_append_left [d] member)
    have last := small d (List.mem_append_right ds List.mem_cons_self)
    rw [ofDigits_concat, List.length_append, List.length_singleton, pow_succ]
    omega

theorem natural?_lt {n : Nat} (read : natural? t = some n) : n < 10 ^ maxDigits := by
  obtain ⟨ds, run, read⟩ := Option.bind_eq_some_iff.mp read
  split at read
  · rename_i few
    cases read
    exact lt_of_lt_of_le (ofDigits_lt (digitRun?_digits run)) (Nat.pow_le_pow_right (by decide) few)
  · cases read

theorem isShowable_iff {n : Int} : isShowable n = true ↔ n.natAbs < 10 ^ maxDigits := by
  rw [isShowable, decide_eq_true_eq, Nat.pow_eq]

/-- An integer that was read is a natural number that was read, up to its sign. -/
theorem natAbs_of_integer? {n : Int} (read : integer? t = some n) :
    ∃ r m, natural? r = some m ∧ n.natAbs = m := by
  unfold integer? at read
  split at read
  all_goals
    obtain ⟨_, number, rfl⟩ := Option.map_eq_some_iff.mp read
    obtain ⟨m, natural, same⟩ := Option.bind_eq_some_iff.mp number
    cases same
  · exact ⟨_, m, natural, by rw [Int.natAbs_neg, Int.natAbs_natCast]⟩
  · exact ⟨_, m, natural, Int.natAbs_natCast m⟩
  · exact ⟨_, m, natural, Int.natAbs_natCast m⟩

theorem isShowable_of_integer? {n : Int} (read : integer? t = some n) : isShowable n = true := by
  obtain ⟨r, m, natural, same⟩ := natAbs_of_integer? read
  rw [isShowable_iff, same]
  exact natural?_lt natural

/-! ### Decimal texts -/

theorem digitValue?_of_isDigit (digit : c.isDigit = true) :
    digitValue? c = some (c.toNat - '0'.toNat) := by
  have within := Char.isDigit_iff_toNat.mp digit
  have first : (0x30 ≤ c.toNat && c.toNat ≤ 0x30 + 9) = true := by
    simpa using within
  unfold digitValue? digitZeros
  rw [List.find?_cons, first]
  rfl

theorem digitRun?_of_isDigit (some_digit : t ≠ []) (digits : ∀ c ∈ t, c.isDigit = true) :
    digitRun? t = some (t.map fun c => c.toNat - '0'.toNat) := by
  induction t using digitRun?.induct with
  | case1 => exact absurd rfl some_digit
  | case2 c => rw [digitRun?, digitValue?_of_isDigit (digits c List.mem_cons_self)]; rfl
  | case3 c cs ih => exact absurd (digits '_' (List.mem_cons_of_mem c List.mem_cons_self)) (by decide)
  | case4 c cs more noUnderscore ih =>
    rw [digitRun?, digitValue?_of_isDigit (digits c List.mem_cons_self),
      ih more fun x member => digits x (List.mem_cons_of_mem c member)]
    · rfl
    all_goals assumption

theorem natural?_toDigits {n : Nat} (few : n < 10 ^ maxDigits) :
    natural? (Nat.toDigits 10 n) = some n := by
  have digits : ∀ c ∈ Nat.toDigits 10 n, c.isDigit = true := by
    intro c member
    exact Nat.isDigit_of_mem_toDigits (by decide) (by decide) member
  have value : ofDigits ((Nat.toDigits 10 n).map fun c => c.toNat - '0'.toNat) = n := by
    rw [ofDigits, List.foldl_map, ← Nat.ofDigitChars_eq_foldl]
    exact Nat.ofDigitChars_toDigits (by decide) (by decide)
  have short : (Nat.toDigits 10 n).length ≤ maxDigits :=
    (Nat.length_toDigits_le_iff (by decide) (by decide)).mpr few
  rw [natural?, digitRun?_of_isDigit Nat.toDigits_ne_nil digits]
  simp only [Option.bind_eq_bind, Option.bind_some, List.length_map, if_pos short, value]
  rfl

/-- The decimal digits of an integer, behind a minus sign if it is negative. -/
def decimalText (n : Int) : Text := (toString n).toList

theorem decimalText_of_nonneg {n : Int} (sign : 0 ≤ n) :
    decimalText n = Nat.toDigits 10 n.natAbs := by
  have written : decimalText n = n.repr.toList := rfl
  have same : n.toNat = n.natAbs := by omega
  rw [written, Int.repr_eq_if, if_pos sign, Nat.toList_repr, same]

theorem decimalText_of_neg {n : Int} (sign : n < 0) :
    decimalText n = '-' :: Nat.toDigits 10 n.natAbs := by
  have written : decimalText n = n.repr.toList := rfl
  have same : (-n).toNat = n.natAbs := by omega
  rw [written, Int.repr_eq_if, if_neg (Int.not_le.mpr sign), String.toList_append,
    Nat.toList_repr, same]
  rfl

theorem isWhiteSpace_of_isDigit (digit : c.isDigit = true) : isWhiteSpace c = false := by
  have within := Char.isDigit_iff_toNat.mp digit
  simp only [Char.reduceToNat] at within
  simp only [isWhiteSpace, inRanges, whiteSpaceRanges, List.any_cons, List.any_nil, Bool.or_false,
    Bool.or_eq_false_iff, Bool.and_eq_false_iff, decide_eq_false_iff_not]
  omega

theorem integer?_of_isDigit (digits : ∀ c ∈ t, c.isDigit = true) :
    integer? t = (natural? t).map Int.ofNat := by
  have whole : trim isWhiteSpace t = t :=
    trim_of_not fun c member => isWhiteSpace_of_isDigit (digits c member)
  unfold integer?
  rw [whole]
  -- No digit is a sign, so the last of the three cases is the one that applies.
  split
  · exact absurd (digits '-' List.mem_cons_self) (by decide)
  · exact absurd (digits '+' List.mem_cons_self) (by decide)
  · cases natural? t <;> rfl

theorem integer?_minus (digits : ∀ c ∈ t, c.isDigit = true) :
    integer? ('-' :: t) = (natural? t).map fun n => -Int.ofNat n := by
  have solid : ∀ c ∈ '-' :: t, isWhiteSpace c = false := by
    intro c member
    rcases List.mem_cons.mp member with rfl | later
    · decide
    · exact isWhiteSpace_of_isDigit (digits c later)
  have signed : integer? ('-' :: t) =
      (natural? t >>= fun n => pure (n : Int)).map fun n => -n := by
    simp only [integer?, trim_of_not solid]
  rw [signed]
  cases natural? t <;> rfl

theorem integer?_decimalText {n : Int} (few : isShowable n = true) :
    integer? (decimalText n) = some n := by
  have digits : ∀ c ∈ Nat.toDigits 10 n.natAbs, c.isDigit = true := by
    intro c member
    exact Nat.isDigit_of_mem_toDigits (by decide) (by decide) member
  have magnitude := natural?_toDigits (isShowable_iff.mp few)
  by_cases sign : 0 ≤ n
  · rw [decimalText_of_nonneg sign, integer?_of_isDigit digits, magnitude]
    exact congrArg some (Int.natAbs_of_nonneg sign)
  · have negative : n < 0 := Int.not_le.mp sign
    rw [decimalText_of_neg negative, integer?_minus digits, magnitude]
    have same : -Int.ofNat n.natAbs = n := by
      rw [Int.ofNat_eq_natCast, Int.ofNat_natAbs_of_nonpos (by omega), Int.neg_neg]
    exact congrArg some same

/-- The integers that some text gives are those with few enough digits. -/
theorem integer?_reaches_iff {n : Int} : (∃ t, integer? t = some n) ↔ isShowable n = true := by
  constructor
  · rintro ⟨t, read⟩
    exact isShowable_of_integer? read
  · intro few
    exact ⟨decimalText n, integer?_decimalText few⟩

end ChordSymbols
