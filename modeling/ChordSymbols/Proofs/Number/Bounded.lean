import ChordSymbols.Proofs.Number.Rounding

/-!
# Rounding under a whole bound

Rounding to the nearest number of a format cannot pass a number of the format.
Whole numbers below `2^53` are such numbers, so that a ratio under a whole bound
of this size is rounded to a finite number under the same bound, and stays under
it when its fraction is cut off.
-/

namespace ChordSymbols

section Bound

variable {num den bound : Nat}

theorem nearest_le (pos : 0 < den) (under : num ≤ bound * den) : nearest num den ≤ bound := by
  have below : num / den ≤ bound := Nat.div_le_of_le_mul (by rwa [Nat.mul_comm])
  have top := (nearest_bounds num den).2
  rcases Nat.lt_or_eq_of_le below with less | same
  · omega
  · -- The bound itself is reached only without a remainder.
    have split : num / den * den + num % den = num := Nat.div_add_mod' num den
    have exact : num % den = 0 := by
      rw [same] at split
      omega
    rw [nearest, exact, same]
    simp [pos]

/-- The units of a ratio under a bound below `2^53` are ones or fractions of one. -/
theorem lastPlace_nonpos (pos : 0 < den) (nonzero : 0 < num) (under : num ≤ bound * den)
    (small : bound < 2 ^ 53) : lastPlace num den ≤ 0 := by
  have exponent : binaryExponent num den ≤ 52 := by
    rcases Nat.lt_or_ge num den with less | more
    · rcases binaryExponent_small nonzero less with near | far
      · omega
      · omega
    · obtain ⟨e, same, power⟩ := binaryExponent_large pos more
      have wide : den * 2 ^ e < den * 2 ^ 53 := by
        calc den * 2 ^ e ≤ num := power
          _ ≤ den * bound := by rwa [Nat.mul_comm]
          _ < den * 2 ^ 53 := Nat.mul_lt_mul_of_pos_left small pos
      have order : e < 53 := (Nat.pow_lt_pow_iff_right (by decide)).mp (Nat.lt_of_mul_lt_mul_left wide)
      omega
  rw [lastPlace]
  omega

theorem mantissa_le (pos : 0 < den) (nonzero : 0 < num) (under : num ≤ bound * den)
    (small : bound < 2 ^ 53) :
    (mantissa num den : ℚ) * 2 ^ lastPlace num den ≤ bound := by
  obtain ⟨k, place⟩ : ∃ k : Nat, lastPlace num den = -(k : Int) :=
    ⟨(-lastPlace num den).toNat, by have := lastPlace_nonpos pos nonzero under small; omega⟩
  have scaled : mantissa num den ≤ bound * 2 ^ k := by
    have above : twoTo (lastPlace num den) = 1 := by simp [twoTo, place]
    have under' : twoTo (-lastPlace num den) = 2 ^ k := by simp [twoTo, place]
    rw [mantissa, above, under', Nat.mul_one]
    refine nearest_le pos ?_
    calc num * 2 ^ k ≤ bound * den * 2 ^ k := Nat.mul_le_mul_right _ under
      _ = bound * 2 ^ k * den := by ring
  have cast : (mantissa num den : ℚ) ≤ bound * 2 ^ k := by exact_mod_cast scaled
  rw [place, zpow_neg, zpow_natCast, ← div_eq_mul_inv, div_le_iff₀ (by positivity)]
  exact cast

end Bound

theorem toWhole_le {m bound : Nat} {q : Int} (under : (m : ℚ) * 2 ^ q ≤ bound) :
    ∃ n : Nat, (Binary64.finite false m q).toWhole = .ok (n : Int) ∧ n ≤ bound := by
  refine ⟨m * twoTo q / twoTo (-q), rfl, ?_⟩
  refine Nat.div_le_of_le_mul ?_
  have scale : (0 : ℚ) ≤ twoTo (-q) := by positivity
  have product := mul_le_mul_of_nonneg_right under scale
  rw [mul_assoc, ← twoTo_eq, mul_comm (bound : ℚ)] at product
  exact_mod_cast product

/-- A ratio under a bound is cut to a whole number under the bound. -/
theorem toWhole_ofRatio_le {num den bound : Nat} (pos : 0 < den) (under : num ≤ bound * den)
    (small : bound < 2 ^ 53) :
    ∃ n : Nat, (Binary64.ofRatio false num den).toWhole = .ok (n : Int) ∧ n ≤ bound := by
  rcases Nat.eq_zero_or_pos num with rfl | nonzero
  · have zero : Binary64.ofRatio false 0 den = .finite false 0 (-1074) := rfl
    rw [zero]
    exact toWhole_le (by simp)
  · have fine := lastPlace_nonpos pos nonzero under small
    have finite : ¬ 971 < (roundedParts num den).2 := by
      unfold roundedParts
      split
      · simp only
        omega
      · simp only
        omega
    have value := roundedParts_value num den
    rw [ofRatio_eq nonzero, if_neg finite]
    refine toWhole_le ?_
    rw [value]
    exact mantissa_le pos nonzero under small

/-- A natural divided by a positive whole number. -/
theorem dividing_le {n bound : Nat} {k : Int} (positive : 0 < k) (under : (n : Int) ≤ bound * k)
    (small : bound < 2 ^ 53) :
    ∃ r : Nat, (Quantity.whole k).dividing n = .ok (r : Int) ∧ r ≤ bound := by
  obtain ⟨d, rfl⟩ := Int.eq_ofNat_of_zero_le positive.le
  have pos : 0 < d := by omega
  have nonneg : ¬ (d : Int) < 0 := by omega
  have divided : (Quantity.whole d).dividing n = (Binary64.ofRatio false n d).toWhole := by
    rw [Quantity.dividing, if_neg (by omega), decide_eq_false nonneg, Int.natAbs_natCast]
  rw [divided]
  exact toWhole_ofRatio_le pos (by exact_mod_cast under) small

end ChordSymbols
