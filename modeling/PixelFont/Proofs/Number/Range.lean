import Mathlib.Algebra.Order.Field.Power
import Mathlib.Algebra.Order.Field.Rat
import Mathlib.Tactic.FieldSimp
import Mathlib.Tactic.Linarith
import PixelFont.Proofs.Number.Exactness

/-!
The range of floating point. A fraction is at least the power of two of its leading digit
(`Binary64.zpow_exponentOf_le`), which bounds the exponent of the number nearest to it. So that
number is finite for a fraction below a power of two within the range, and rounding does not take it
beyond the next power (`Binary64.exists_ofFraction_eq`).
-/

set_option autoImplicit false

namespace PixelFont.Number

/-- The size of a fraction, whatever its sign. -/
def Fraction.size (x : Fraction) : ℚ :=
  x.numerator / x.denominator

theorem Fraction.size_mul (x y : Fraction) : (x.mul y).size = x.size * y.size := by
  simp only [Fraction.size, Fraction.mul, Nat.cast_mul, mul_div_mul_comm]

theorem Fraction.IsWhole.size {x : Fraction} {number : Int} {power : ℕ}
    (hx : x.IsWhole number power) : x.size = number.natAbs := by
  rw [Fraction.size, hx.numerator, hx.denominator]
  push_cast
  exact mul_div_cancel_right₀ _ (by positivity)

/-- A power of two with a sign in its exponent is a quotient of two without. -/
theorem zpow_eq_div (exponent : ℤ) :
    (2 : ℚ) ^ exponent = 2 ^ exponent.toNat / 2 ^ (-exponent).toNat := by
  rcases Int.le_total 0 exponent with hsign | hsign
  · obtain ⟨power, rfl⟩ := Int.eq_ofNat_of_zero_le hsign
    simp
  · obtain ⟨power, hpower⟩ := Int.eq_ofNat_of_zero_le (Int.neg_nonneg_of_nonpos hsign)
    obtain rfl : exponent = -power := by omega
    simp

theorem mul_two_pow_le_iff {first second : ℕ} (hfirst : 0 < first) (exponent : ℤ) :
    first * 2 ^ exponent.toNat ≤ second * 2 ^ (-exponent).toNat ↔
      (2 : ℚ) ^ exponent ≤ second / first := by
  have hpositive : (0 : ℚ) < first := by exact_mod_cast hfirst
  rw [zpow_eq_div, div_le_div_iff₀ (by positivity) hpositive, mul_comm first]
  exact_mod_cast Iff.rfl

namespace Binary64

/-- A number is at least the power of two of its leading digit, unless its exponent is the least. -/
theorem zpow_exponentOf_le {numerator denominator : ℕ} (hnumerator : numerator ≠ 0)
    (hdenominator : denominator ≠ 0) :
    exponentOf numerator denominator = leastExponent ∨
      (2 : ℚ) ^ (exponentOf numerator denominator + 52) ≤ numerator / denominator := by
  have hpositive : (0 : ℚ) < denominator := by exact_mod_cast Nat.pos_of_ne_zero hdenominator
  have hbelow : (2 : ℚ) ^ ((numerator.log2 : ℤ) - denominator.log2 - 1) ≤
      numerator / denominator := by
    have hfirst : (2 : ℚ) ^ numerator.log2 ≤ numerator := by
      exact_mod_cast Nat.log2_self_le hnumerator
    have hsecond : (denominator : ℚ) ≤ 2 ^ (denominator.log2 + 1) := by
      exact_mod_cast Nat.lt_log2_self.le
    calc (2 : ℚ) ^ ((numerator.log2 : ℤ) - denominator.log2 - 1)
        = 2 ^ numerator.log2 / 2 ^ (denominator.log2 + 1) := by
          rw [sub_sub, zpow_sub₀ two_ne_zero, zpow_natCast]
          congr 1
      _ ≤ numerator / denominator := div_le_div₀ (by positivity) hfirst hpositive hsecond
  rw [exponentOf]
  simp only [Nat.pow_eq, mul_two_pow_le_iff (Nat.pos_of_ne_zero hdenominator)]
  split
  · rename_i hreached
    rcases le_total ((numerator.log2 : ℤ) - denominator.log2 - 52) leastExponent with
      hsmall | hlarge
    · exact .inl (max_eq_left hsmall)
    · rw [max_eq_right hlarge, Int.sub_add_cancel]
      exact .inr hreached
  · rcases le_total ((numerator.log2 : ℤ) - denominator.log2 - 1 - 52) leastExponent
      with hsmall | hlarge
    · exact .inl (max_eq_left hsmall)
    · rw [max_eq_right hlarge, Int.sub_add_cancel]
      exact .inr hbelow

/-- Where the exponent is not the least, a number below a power of two has an exponent that leaves
room for 53 digits. -/
theorem exponentOf_lt {numerator denominator : ℕ} (hnumerator : numerator ≠ 0)
    (hdenominator : denominator ≠ 0) {power : ℕ}
    (hsize : (numerator : ℚ) / denominator < 2 ^ power) :
    exponentOf numerator denominator < max (-1073) ((power : ℤ) - 52) := by
  rcases zpow_exponentOf_le hnumerator hdenominator with hleast | hlarge
  · rw [hleast, leastExponent]
    omega
  · have hless := hlarge.trans_lt hsize
    rw [← zpow_natCast, zpow_lt_zpow_iff_right₀ one_lt_two] at hless
    omega

/-- Rounding the digits before the exponent adds at most half of the last one. -/
theorem roundHalfEven_mul_zpow_le (numerator : ℕ) {denominator : ℕ}
    (hdenominator : denominator ≠ 0) (exponent : ℤ) :
    (roundHalfEven (numerator * 2 ^ (-exponent).toNat) (denominator * 2 ^ exponent.toNat) : ℚ) *
      2 ^ exponent ≤ numerator / denominator + 2 ^ exponent / 2 := by
  have hpositive : (0 : ℚ) < denominator := by exact_mod_cast Nat.pos_of_ne_zero hdenominator
  have hround := roundHalfEven_le (numerator * 2 ^ (-exponent).toNat)
    (denominator * 2 ^ exponent.toNat)
    (Nat.mul_pos (Nat.pos_of_ne_zero hdenominator) (Nat.two_pow_pos _))
  generalize roundHalfEven _ _ = rounded at hround ⊢
  have hcast : 2 * (denominator * 2 ^ exponent.toNat) * (rounded : ℚ) ≤
      2 * (numerator * 2 ^ (-exponent).toNat) + denominator * 2 ^ exponent.toNat := by
    exact_mod_cast hround
  rw [zpow_eq_div]
  calc (rounded : ℚ) * (2 ^ exponent.toNat / 2 ^ (-exponent).toNat)
      = 2 * (denominator * 2 ^ exponent.toNat) * rounded /
          (2 * denominator * 2 ^ (-exponent).toNat) := by field_simp
    _ ≤ (2 * (numerator * 2 ^ (-exponent).toNat) + denominator * 2 ^ exponent.toNat) /
          (2 * denominator * 2 ^ (-exponent).toNat) :=
        div_le_div_of_nonneg_right hcast (by positivity)
    _ = numerator / denominator + 2 ^ exponent.toNat / 2 ^ (-exponent).toNat / 2 := by field_simp

/-- The number nearest to a fraction below a power of two is finite as long as that power is, and it
is below the next power. -/
theorem exists_ofFraction_eq {x : Fraction} (hdenominator : x.denominator ≠ 0) {power : ℕ}
    (hmost : power ≤ 1023) (hsize : x.size < 2 ^ power) :
    ∃ mantissa exponent, ofFraction x = finite x.negative mantissa exponent ∧
      (mantissa : ℚ) * 2 ^ exponent < 2 ^ (power + 1) := by
  by_cases hnumerator : x.numerator = 0
  · refine ⟨0, leastExponent, by rw [ofFraction, if_pos hnumerator], ?_⟩
    rw [Nat.cast_zero, zero_mul]
    positivity
  · have hexponent := exponentOf_lt hnumerator hdenominator hsize
    have hround := roundHalfEven_mul_zpow_le x.numerator hdenominator
      (exponentOf x.numerator x.denominator)
    unfold ofFraction
    rw [if_neg hnumerator]
    generalize exponentOf x.numerator x.denominator = exponent at hexponent hround ⊢
    simp only [Nat.pow_eq]
    generalize roundHalfEven _ _ = mantissa at hround ⊢
    have hpower : (2 : ℚ) ^ exponent ≤ 2 ^ power := by
      rw [← zpow_natCast]
      exact zpow_le_zpow_right₀ one_le_two (by omega)
    have hvalue : (mantissa : ℚ) * 2 ^ exponent < 2 ^ (power + 1) := by
      rw [pow_succ]
      have hnonneg : (0 : ℚ) < 2 ^ power := by positivity
      change (x.numerator : ℚ) / x.denominator < 2 ^ power at hsize
      linarith
    by_cases hcarry : mantissa = 2 ^ 53
    · -- A carry makes one more digit, for which the exponent has room.
      refine ⟨2 ^ 52, exponent + 1, ?_, ?_⟩
      · simp only [hcarry, if_true]
        rw [if_neg (by omega)]
      · rw [zpow_add₀ two_ne_zero]
        rw [hcarry] at hvalue
        push_cast at hvalue ⊢
        linarith
    · refine ⟨mantissa, exponent, ?_, hvalue⟩
      simp only [hcarry, if_false]
      rw [if_neg (by omega)]

/-- A finite number is a fraction of its value. -/
theorem exists_toFraction?_finite (negative : Bool) (mantissa : ℕ) (exponent : ℤ) :
    ∃ value, (finite negative mantissa exponent).toFraction? = some value ∧
      value.denominator ≠ 0 ∧ value.size = mantissa * 2 ^ exponent := by
  refine ⟨_, rfl, (Nat.two_pow_pos _).ne', ?_⟩
  rw [Fraction.size, zpow_eq_div]
  push_cast [Nat.pow_eq]
  rw [mul_div_assoc]

theorem exists_toFraction?_ofFraction {x : Fraction} (hdenominator : x.denominator ≠ 0) {power : ℕ}
    (hmost : power ≤ 1023) (hsize : x.size < 2 ^ power) :
    ∃ value, (ofFraction x).toFraction? = some value ∧ value.denominator ≠ 0 ∧
      value.size < 2 ^ (power + 1) := by
  obtain ⟨mantissa, exponent, hfinite, hbound⟩ := exists_ofFraction_eq hdenominator hmost hsize
  obtain ⟨value, hvalue, hne, hequal⟩ := exists_toFraction?_finite x.negative mantissa exponent
  exact ⟨value, hfinite ▸ hvalue, hne, hequal ▸ hbound⟩

end Binary64

end PixelFont.Number
