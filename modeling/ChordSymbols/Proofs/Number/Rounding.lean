import ChordSymbols.Number.Quantity
import ChordSymbols.Proofs.Outcome
import Mathlib.Algebra.Order.Field.Power
import Mathlib.Tactic.FieldSimp
import Mathlib.Tactic.Linarith
import Mathlib.Tactic.NormNum
import Mathlib.Tactic.Ring

/-!
# Rounding near one

A ratio is rounded once, to the nearest binary64 number, before its fraction is
cut off. Numbers just below one have steps of `2^(-53)`, so that a ratio is rounded
to one or more exactly from `1 - 2^(-54)` on, the tie going up to the even one.
-/

namespace ChordSymbols

section Nearest

variable {num den k : Nat}

theorem nearest_bounds (num den : Nat) :
    num / den ≤ nearest num den ∧ nearest num den ≤ num / den + 1 := by
  rw [nearest]
  split
  · omega
  · split
    · omega
    · omega

/-- An even natural is reached from half a unit below it on. -/
theorem le_nearest_iff (even : k % 2 = 0) (pos : 0 < den) :
    k ≤ nearest num den ↔ 2 * (k * den) ≤ 2 * num + den := by
  have split : num / den * den + num % den = num := Nat.div_add_mod' num den
  have rest : num % den < den := Nat.mod_lt num pos
  have bounds := nearest_bounds num den
  rcases Nat.lt_or_ge (num / den) k with above | below
  · rcases Nat.lt_or_ge (num / den + 1) k with far | near
    · have product := Nat.mul_le_mul_right den far
      rw [Nat.succ_mul, Nat.succ_mul] at product
      omega
    · -- The one even candidate that the remainder decides.
      obtain rfl : k = num / den + 1 := by omega
      have next : (num / den + 1) * den = num / den * den + den := Nat.succ_mul _ _
      rw [next, nearest]
      split
      · omega
      · split
        · omega
        · omega
  · have product := Nat.mul_le_mul_right den below
    omega

end Nearest

section Exponent

variable {num den : Nat}

/-- The exponent of a ratio of at least one. -/
theorem binaryExponent_large (pos : 0 < den) (large : den ≤ num) :
    ∃ e : Nat, binaryExponent num den = e ∧ den * 2 ^ e ≤ num := by
  have top : 2 ^ num.log2 ≤ num := Nat.log2_self_le (by omega)
  have above : den < 2 ^ (den.log2 + 1) := Nat.lt_log2_self
  have order : den.log2 ≤ num.log2 := by
    rw [Nat.le_log2 (by omega)]
    exact Nat.le_trans (Nat.log2_self_le (by omega)) large
  obtain ⟨k, gap⟩ : ∃ k, num.log2 = den.log2 + k := Nat.exists_eq_add_of_le order
  have e₀ : (num.log2 : Int) - (den.log2 : Int) = k := by omega
  rw [binaryExponent, e₀]
  simp only [twoTo, Int.toNat_natCast, Int.toNat_neg_natCast, Nat.pow_eq, Nat.pow_zero,
    Nat.mul_one]
  split
  · exact ⟨k, rfl, ‹_›⟩
  · cases k with
    | zero => omega
    | succ k =>
      refine ⟨k, by omega, ?_⟩
      have := Nat.mul_lt_mul_of_pos_right above (Nat.two_pow_pos k)
      rw [← Nat.pow_add] at this
      have same : den.log2 + 1 + k = num.log2 := by omega
      rw [same] at this
      omega

/-- The exponent of a ratio below one; it is `-1` for ratios of at least a half. -/
theorem binaryExponent_small (pos : 0 < num) (small : num < den) :
    binaryExponent num den = -1 ∨ binaryExponent num den ≤ -2 ∧ 2 * num < den := by
  have above : num < 2 ^ (num.log2 + 1) := Nat.lt_log2_self
  have top : 2 ^ den.log2 ≤ den := Nat.log2_self_le (by omega)
  have order : num.log2 ≤ den.log2 := by
    rw [Nat.le_log2 (by omega)]
    exact Nat.le_trans (Nat.log2_self_le (by omega)) (Nat.le_of_lt small)
  obtain ⟨k, gap⟩ : ∃ k, den.log2 = num.log2 + k := Nat.exists_eq_add_of_le order
  have e₀ : (num.log2 : Int) - (den.log2 : Int) = -k := by omega
  rw [binaryExponent, e₀]
  simp only [twoTo, Int.toNat_natCast, Int.toNat_neg_natCast, Int.neg_neg, Nat.pow_eq,
    Nat.pow_zero, Nat.mul_one]
  rcases k with _ | _ | k
  · exact .inl (by rw [if_neg (by omega)]; rfl)
  · split
    · exact .inl rfl
    · exact .inr ⟨by omega, by omega⟩
  · have far : 2 ^ (num.log2 + 1 + 1) ≤ 2 ^ den.log2 :=
      Nat.pow_le_pow_right (by decide) (by omega)
    rw [Nat.pow_succ] at far
    refine .inr ⟨?_, by omega⟩
    split
    · omega
    · omega

end Exponent

theorem twoTo_pos (e : Int) : 0 < twoTo e := Nat.two_pow_pos _

/-- The two powers that stand for one exponent, above and under a fraction. -/
theorem twoTo_eq (e : Int) : (twoTo e : ℚ) = 2 ^ e * twoTo (-e) := by
  obtain ⟨k, rfl | rfl⟩ := Int.eq_nat_or_neg e
  · simp [twoTo]
  · simp [twoTo]

/-- Rounding a ratio to multiples of `2 ^ q` reaches an even one from half a step below it on. -/
theorem le_nearest_scaled (num : Nat) {den k : Nat} (even : k % 2 = 0) (pos : 0 < den) (q : Int) :
    k ≤ nearest (num * twoTo (-q)) (den * twoTo q) ↔
      ((k : ℚ) - 1 / 2) * 2 ^ q ≤ num / den := by
  have denPos : (0 : ℚ) < den := by exact_mod_cast pos
  have scalePos : (0 : ℚ) < twoTo (-q) := by exact_mod_cast twoTo_pos (-q)
  rw [le_nearest_iff even (Nat.mul_pos pos (twoTo_pos q)), ← @Nat.cast_le ℚ]
  push_cast
  have sides : 2 * ((num : ℚ) * twoTo (-q)) + den * (2 ^ q * twoTo (-q)) -
      2 * (k * (den * (2 ^ q * twoTo (-q)))) =
        2 * twoTo (-q) * (num - ((k : ℚ) - 1 / 2) * 2 ^ q * den) := by ring
  rw [twoTo_eq q, le_div_iff₀ denPos, ← sub_nonneg, sides,
    mul_nonneg_iff_of_pos_left (by positivity), sub_nonneg]

/-- The exponent of the last place of a ratio, and its mantissa in these units. -/
def lastPlace (num den : Nat) : Int := max (binaryExponent num den - 52) (-1074)

def mantissa (num den : Nat) : Nat :=
  nearest (num * twoTo (-lastPlace num den)) (den * twoTo (lastPlace num den))

/-- Fraction and exponent of a rounded ratio. A mantissa that was rounded up to the next power
of two is halved. -/
def roundedParts (num den : Nat) : Nat × Int :=
  if mantissa num den = twoTo 53 then (twoTo 52, lastPlace num den + 1)
  else (mantissa num den, lastPlace num den)

theorem ofRatio_eq {num den : Nat} (pos : 0 < num) :
    Binary64.ofRatio false num den =
      if 971 < (roundedParts num den).2 then .infinite false
      else .finite false (roundedParts num den).1 (roundedParts num den).2 := by
  rw [Binary64.ofRatio, if_neg (by omega)]
  rfl

theorem roundedParts_value (num den : Nat) :
    ((roundedParts num den).1 : ℚ) * 2 ^ (roundedParts num den).2 =
      mantissa num den * 2 ^ lastPlace num den := by
  unfold roundedParts
  split_ifs with full
  · have half : (twoTo 53 : ℚ) = 2 * twoTo 52 := by
      exact_mod_cast (by decide : twoTo 53 = 2 * twoTo 52)
    rw [full, half, zpow_add_one₀ two_ne_zero]
    ring
  · rfl

theorem ofRatio_value {num den m : Nat} {s : Bool} {q : Int} (pos : 0 < num)
    (rounded : Binary64.ofRatio false num den = .finite s m q) :
    s = false ∧ (m : ℚ) * 2 ^ q = mantissa num den * 2 ^ lastPlace num den := by
  rw [ofRatio_eq pos] at rounded
  split_ifs at rounded
  cases rounded
  exact ⟨rfl, roundedParts_value num den⟩

/-- In units below one, a ratio is rounded to at least one from half a unit below one on. -/
theorem one_le_mantissa_iff {num den : Nat} (pos : 0 < den) (fine : lastPlace num den < 0) :
    1 ≤ (mantissa num den : ℚ) * 2 ^ lastPlace num den ↔
      1 - 2 ^ lastPlace num den / 2 ≤ (num : ℚ) / den := by
  obtain ⟨k, place⟩ : ∃ k : Nat, lastPlace num den = -(k + 1 : Nat) :=
    ⟨(-lastPlace num den - 1).toNat, by omega⟩
  have unit : (2 : ℚ) ^ (k + 1) * 2 ^ lastPlace num den = 1 := by
    rw [place, zpow_neg, zpow_natCast]
    exact mul_inv_cancel₀ (by positivity)
  have unitPos : (0 : ℚ) < 2 ^ lastPlace num den := by positivity
  have even : 2 ^ (k + 1) % 2 = 0 := by
    rw [Nat.pow_succ]
    exact Nat.mul_mod_left _ _
  have reached := le_nearest_scaled num even pos (lastPlace num den)
  push_cast at reached
  rw [sub_mul, unit, one_div, inv_mul_eq_div] at reached
  rw [← reached, ← unit, mul_le_mul_iff_left₀ unitPos]
  exact_mod_cast Iff.rfl

/-- No ratio of at least one is rounded to below one. -/
theorem one_le_mantissa_of_large {num den : Nat} (pos : 0 < den) (large : den ≤ num) :
    1 ≤ (mantissa num den : ℚ) * 2 ^ lastPlace num den := by
  have denPos : (0 : ℚ) < den := by exact_mod_cast pos
  obtain ⟨e, exponent, power⟩ := binaryExponent_large pos large
  rcases Int.lt_or_le (lastPlace num den) 0 with fine | coarse
  · have above : 1 ≤ (num : ℚ) / den := by
      rw [le_div_iff₀ denPos, one_mul]
      exact_mod_cast large
    have unitPos : (0 : ℚ) < 2 ^ lastPlace num den := by positivity
    rw [one_le_mantissa_iff pos fine]
    linarith
  · -- The units are whole numbers, and there are at least two of them.
    obtain ⟨k, rfl⟩ : ∃ k, e = k + 52 := ⟨e - 52, by rw [lastPlace] at coarse; omega⟩
    have place : lastPlace num den = k := by
      rw [lastPlace]
      omega
    have wide : (den : ℚ) * 2 ^ (k + 52) ≤ num := by exact_mod_cast power
    have two : 2 ≤ mantissa num den := by
      rw [mantissa, le_nearest_scaled num (by decide) pos, place, le_div_iff₀ denPos, zpow_natCast]
      calc ((2 : Nat) - 1 / 2 : ℚ) * 2 ^ k * den = 3 / 2 * (den * 2 ^ k) := by
            push_cast
            ring
        _ ≤ 2 ^ 52 * (den * 2 ^ k) := by
            gcongr
            norm_num
        _ = den * 2 ^ (k + 52) := by ring
        _ ≤ num := wide
    have several : (1 : ℚ) ≤ mantissa num den := by exact_mod_cast (by omega : 1 ≤ mantissa num den)
    rw [place, zpow_natCast]
    exact one_le_mul_of_one_le_of_one_le several (one_le_pow₀ one_le_two)

/-- A ratio is rounded to at least one from half a step below one on. -/
theorem one_le_rounded_iff {num den m : Nat} {s : Bool} {q : Int} (pos : 0 < den)
    (rounded : Binary64.ofRatio false num den = .finite s m q) :
    1 ≤ (m : ℚ) * 2 ^ q ↔ 1 - 1 / 2 ^ 54 ≤ (num : ℚ) / den := by
  rcases Nat.eq_zero_or_pos num with rfl | numPos
  · cases rounded
    norm_num
  rw [(ofRatio_value numPos rounded).2]
  have denPos : (0 : ℚ) < den := by exact_mod_cast pos
  rcases Nat.lt_or_ge num den with small | large
  · rcases binaryExponent_small numPos small with near | ⟨far, half⟩
    · have place : lastPlace num den = -53 := by
        rw [lastPlace, near]
        rfl
      rw [one_le_mantissa_iff pos (by omega), place]
      norm_num
    · have fine : lastPlace num den < 0 := by
        rw [lastPlace]
        omega
      have unit : (2 : ℚ) ^ lastPlace num den ≤ 1 := zpow_le_one_of_nonpos₀ (by norm_num) fine.le
      have below : (num : ℚ) / den < 1 / 2 := by
        rw [div_lt_div_iff₀ denPos two_pos]
        exact_mod_cast (by omega : num * 2 < 1 * den)
      rw [one_le_mantissa_iff pos fine]
      constructor
      · intro h
        linarith
      · intro h
        norm_num at h
        linarith
  · have above : 1 ≤ (num : ℚ) / den := by
      rw [le_div_iff₀ denPos, one_mul]
      exact_mod_cast large
    refine iff_of_true (one_le_mantissa_of_large pos large) ?_
    norm_num
    linarith

theorem one_le_toWhole_iff {m : Nat} {q n : Int}
    (cut : (Binary64.finite false m q).toWhole = .ok n) : 1 ≤ n ↔ 1 ≤ (m : ℚ) * 2 ^ q := by
  have scalePos : (0 : ℚ) < twoTo (-q) := by exact_mod_cast twoTo_pos (-q)
  have whole : n = (m * twoTo q / twoTo (-q) : Nat) := (Except.ok.inj cut).symm
  have quotient : 1 ≤ m * twoTo q / twoTo (-q) ↔ twoTo (-q) ≤ m * twoTo q := by
    rw [Nat.le_div_iff_mul_le (twoTo_pos (-q)), Nat.one_mul]
  have scaled : (m : ℚ) * (2 ^ q * twoTo (-q)) = m * 2 ^ q * twoTo (-q) := by ring
  rw [whole, Nat.one_le_cast, quotient, ← @Nat.cast_le ℚ]
  push_cast
  rw [twoTo_eq q, scaled, le_mul_iff_one_le_left scalePos]

/-- The exact value of a number, where it has one. -/
def Binary64.value? : Binary64 → Option ℚ
  | .finite s m q => some ((if s then -1 else 1) * m * 2 ^ q)
  | .infinite _ | .notANumber => none

def Quantity.value? : Quantity → Option ℚ
  | .whole n => some n
  | .real x => x.value?

/-- A positive length is cut to at least one tick of `480` exactly if its exact number of ticks is
one or more, up to half a step of rounding. -/
theorem one_le_ticks_iff {b : Quantity} {n : Int} (positive : b.nonPositive = false)
    (cut : b.timesWhole 480 = .ok n) :
    ∃ v, b.value? = some v ∧ (1 ≤ n ↔ 1 - 1 / 2 ^ 54 ≤ 480 * v) := by
  cases b with
  | whole k =>
    cases cut
    have least : 1 ≤ k := by
      simp only [Quantity.nonPositive, decide_eq_false_iff_not] at positive
      omega
    have exact : (1 : ℚ) ≤ k := by exact_mod_cast least
    refine ⟨k, rfl, iff_of_true (by omega) ?_⟩
    norm_num
    linarith
  | real x =>
    have factor : Binary64.ofWhole 480 = .ok (.finite false (480 * 2 ^ 44) (-44)) := by decide
    rw [Quantity.timesWhole, factor] at cut
    change (x.mul (.finite false (480 * 2 ^ 44) (-44))).toWhole = .ok n at cut
    cases x with
    | notANumber => cases cut
    | infinite s => cases cut
    | finite s m q =>
      obtain ⟨rfl, nonzero⟩ : s = false ∧ m ≠ 0 := by
        simpa [Quantity.nonPositive, Binary64.nonPositive] using positive
      have numPos : 0 < m * (480 * 2 ^ 44) * twoTo (q + -44) :=
        Nat.mul_pos (by omega) (twoTo_pos _)
      have product : ((m * (480 * 2 ^ 44) * twoTo (q + -44) : Nat) : ℚ) / twoTo (-(q + -44)) =
          480 * (1 * m * 2 ^ q) := by
        have scale : (twoTo (-(q + -44)) : ℚ) ≠ 0 := by exact_mod_cast (twoTo_pos _).ne'
        push_cast
        rw [twoTo_eq (q + -44), zpow_add₀ two_ne_zero]
        field_simp
        norm_num
      refine ⟨_, rfl, ?_⟩
      change (Binary64.ofRatio false (m * (480 * 2 ^ 44) * twoTo (q + -44))
        (twoTo (-(q + -44)))).toWhole = .ok n at cut
      cases rounded : Binary64.ofRatio false (m * (480 * 2 ^ 44) * twoTo (q + -44))
          (twoTo (-(q + -44))) with
      | notANumber =>
        rw [rounded] at cut
        cases cut
      | infinite s =>
        rw [rounded] at cut
        cases cut
      | finite s' m' q' =>
        obtain ⟨rfl, -⟩ := ofRatio_value numPos rounded
        rw [rounded] at cut
        rw [one_le_toWhole_iff cut, one_le_rounded_iff (twoTo_pos _) rounded, product]
        simp

end ChordSymbols
