import PixelFont.Proofs.Number.Range

/-!
Rounding to floating point keeps the order of fractions. The exponent that a fraction is rounded
with brackets it between two powers of two (`Binary64.zpow_exponentOf_le`,
`Binary64.lt_zpow_exponentOf`). Fractions of one exponent have their digits rounded in order; of two
fractions with different exponents the greater one is, rounded, at least the power of two that the
lesser one does not exceed. Main statement: `Fraction.nearest_mono`.
-/

set_option autoImplicit false

namespace PixelFont.Number

/-! ### Rounding quotients -/

section Quotients

variable {numerator divisor : ℕ} (hdivisor : 0 < divisor)
include hdivisor

theorem roundHalfEven_mono_of_div_le {second other : ℕ} (hother : 0 < other)
    (hle : (numerator : ℚ) / divisor ≤ second / other) :
    roundHalfEven numerator divisor ≤ roundHalfEven second other := by
  rw [div_le_div_iff₀ (by exact_mod_cast hdivisor) (by exact_mod_cast hother)] at hle
  rw [← roundHalfEven_mul_mul numerator divisor hother,
    ← roundHalfEven_mul_mul second other hdivisor, Nat.mul_comm other divisor]
  exact roundHalfEven_mono (Nat.mul_pos hdivisor hother) (by exact_mod_cast hle)

theorem roundHalfEven_le_of_div_le {bound : ℕ} (hle : (numerator : ℚ) / divisor ≤ bound) :
    roundHalfEven numerator divisor ≤ bound := by
  rw [div_le_iff₀ (by exact_mod_cast hdivisor)] at hle
  exact roundHalfEven_le_of_le_mul hdivisor (by exact_mod_cast hle)

theorem le_roundHalfEven_of_le_div {bound : ℕ} (hle : (bound : ℚ) ≤ numerator / divisor) :
    bound ≤ roundHalfEven numerator divisor := by
  rw [le_div_iff₀ (by exact_mod_cast hdivisor)] at hle
  have hmono := roundHalfEven_mono hdivisor (show bound * divisor ≤ _ by exact_mod_cast hle)
  rwa [roundHalfEven_mul bound hdivisor] at hmono

end Quotients

/-! ### Rounding fractions -/

namespace Binary64

/-- A number is below the power of two after its leading digit. -/
theorem lt_zpow_exponentOf (numerator : ℕ) {denominator : ℕ} (hdenominator : denominator ≠ 0) :
    (numerator : ℚ) / denominator < 2 ^ (exponentOf numerator denominator + 53) := by
  have hpositive : (0 : ℚ) < denominator := by exact_mod_cast Nat.pos_of_ne_zero hdenominator
  have habove : (numerator : ℚ) / denominator <
      2 ^ ((numerator.log2 : ℤ) - denominator.log2 + 1) := by
    have hfirst : (numerator : ℚ) < 2 ^ (numerator.log2 + 1) := by
      exact_mod_cast Nat.lt_log2_self
    have hsecond : (2 : ℚ) ^ denominator.log2 ≤ denominator := by
      exact_mod_cast Nat.log2_self_le hdenominator
    calc (numerator : ℚ) / denominator < 2 ^ (numerator.log2 + 1) / 2 ^ denominator.log2 :=
          div_lt_div₀ hfirst hsecond (by positivity) (by positivity)
      _ = 2 ^ ((numerator.log2 : ℤ) - denominator.log2 + 1) := by
          rw [sub_add_eq_add_sub, zpow_sub₀ two_ne_zero, zpow_natCast]
          congr 1
  rw [exponentOf]
  simp only [Nat.pow_eq, mul_two_pow_le_iff (Nat.pos_of_ne_zero hdenominator)]
  split
  · exact habove.trans_le (zpow_le_zpow_right₀ one_le_two (by omega))
  · rename_i hunreached
    exact (not_le.mp hunreached).trans_le (zpow_le_zpow_right₀ one_le_two (by omega))

end Binary64

namespace Fraction

/-- The number of units of a power of two that a fraction is nearest to. -/
def units (x : Fraction) (exponent : ℤ) : ℕ :=
  roundHalfEven (x.numerator * 2 ^ (-exponent).toNat) (x.denominator * 2 ^ exponent.toNat)

/-- The exponent with which a fraction is rounded to floating point. -/
def exponent (x : Fraction) : ℤ :=
  Binary64.exponentOf x.numerator x.denominator

/-- The value that a fraction is rounded to in floating point, if it is within range. -/
def nearest (x : Fraction) : ℚ :=
  x.units x.exponent * 2 ^ x.exponent

theorem size_div_zpow (x : Fraction) (exponent : ℤ) :
    ((x.numerator * 2 ^ (-exponent).toNat : ℕ) : ℚ) / (x.denominator * 2 ^ exponent.toNat : ℕ) =
      x.size / 2 ^ exponent := by
  rw [zpow_eq_div, size]
  push_cast
  field_simp

variable {x y : Fraction} (hx : x.denominator ≠ 0) (hy : y.denominator ≠ 0)

include hx in
theorem scaled_pos (exponent : ℤ) : 0 < x.denominator * 2 ^ exponent.toNat :=
  Nat.mul_pos (Nat.pos_of_ne_zero hx) (Nat.two_pow_pos _)

include hx in
/-- A fraction of at most some units is not rounded beyond them. -/
theorem units_le_of_size_le {exponent : ℤ} {bound : ℕ} (hle : x.size ≤ bound * 2 ^ exponent) :
    x.units exponent ≤ bound := by
  refine roundHalfEven_le_of_div_le (scaled_pos hx exponent) ?_
  rwa [size_div_zpow, div_le_iff₀ (by positivity)]

include hx in
/-- A fraction of at least some units is not rounded below them. -/
theorem le_units_of_le_size {exponent : ℤ} {bound : ℕ} (hle : bound * 2 ^ exponent ≤ x.size) :
    bound ≤ x.units exponent := by
  refine le_roundHalfEven_of_le_div (scaled_pos hx exponent) ?_
  rwa [size_div_zpow, le_div_iff₀ (by positivity)]

include hx hy in
theorem units_mono (hle : x.size ≤ y.size) (exponent : ℤ) :
    x.units exponent ≤ y.units exponent := by
  refine roundHalfEven_mono_of_div_le (scaled_pos hx exponent) (scaled_pos hy exponent) ?_
  rw [size_div_zpow, size_div_zpow]
  exact div_le_div_of_nonneg_right hle (by positivity)

theorem leastExponent_le (x : Fraction) : Binary64.leastExponent ≤ x.exponent :=
  le_max_left _ _

theorem size_nonneg (x : Fraction) : 0 ≤ x.size := by
  unfold size
  positivity

include hx in
theorem size_lt_zpow : x.size < 2 ^ (x.exponent + 53) :=
  Binary64.lt_zpow_exponentOf x.numerator hx

include hx in
/-- A fraction whose exponent is not the least has 53 binary digits above it. -/
theorem zpow_le_size (hpositive : 0 < x.size) (hexponent : Binary64.leastExponent < x.exponent) :
    (2 : ℚ) ^ (x.exponent + 52) ≤ x.size := by
  have hnumerator : x.numerator ≠ 0 := by
    rintro hzero
    rw [size, hzero, Nat.cast_zero, zero_div] at hpositive
    exact lt_irrefl _ hpositive
  exact (Binary64.zpow_exponentOf_le hnumerator hx).resolve_left hexponent.ne'

include hx hy in
theorem exponent_mono (hpositive : 0 < x.size) (hle : x.size ≤ y.size) :
    x.exponent ≤ y.exponent := by
  rcases x.leastExponent_le.eq_or_lt with hleast | hexponent
  · exact hleast ▸ y.leastExponent_le
  · have hpowers := ((zpow_le_size hx hpositive hexponent).trans hle).trans_lt (size_lt_zpow hy)
    rw [zpow_lt_zpow_iff_right₀ one_lt_two] at hpowers
    omega

include hx in
theorem nearest_eq_zero (hzero : x.size = 0) : x.nearest = 0 := by
  have hunits : x.units x.exponent ≤ 0 := units_le_of_size_le hx (by simp [hzero])
  rw [nearest, Nat.le_zero.mp hunits, Nat.cast_zero, zero_mul]

theorem nearest_nonneg (x : Fraction) : 0 ≤ x.nearest := by
  unfold nearest
  positivity

include hx hy in
/-- Fractions are rounded to floating point in their order. -/
theorem nearest_mono (hle : x.size ≤ y.size) : x.nearest ≤ y.nearest := by
  rcases x.size_nonneg.eq_or_lt with hzero | hpositive
  · exact (nearest_eq_zero hx hzero.symm).trans_le y.nearest_nonneg
  rcases (exponent_mono hx hy hpositive hle).eq_or_lt with hsame | hless
  · rw [nearest, nearest, hsame]
    exact mul_le_mul_of_nonneg_right (by exact_mod_cast units_mono hx hy hle _) (by positivity)
  · -- The power of two after the digits of the lesser one has not more than those of the greater.
    have hbelow : x.units x.exponent ≤ 2 ^ 53 := by
      refine units_le_of_size_le hx ?_
      have hpower := (size_lt_zpow hx).le
      rwa [Int.add_comm, zpow_add₀ two_ne_zero] at hpower
    have habove : 2 ^ 52 ≤ y.units y.exponent := by
      refine le_units_of_le_size hy ?_
      have hpower := zpow_le_size hy (hpositive.trans_le hle) (x.leastExponent_le.trans_lt hless)
      rwa [Int.add_comm, zpow_add₀ two_ne_zero] at hpower
    calc x.nearest ≤ 2 ^ 53 * 2 ^ x.exponent :=
          mul_le_mul_of_nonneg_right (by exact_mod_cast hbelow) (by positivity)
      _ = 2 ^ 52 * 2 ^ (x.exponent + 1) := by
          rw [zpow_add₀ two_ne_zero]
          ring
      _ ≤ y.nearest :=
          mul_le_mul (by exact_mod_cast habove) (zpow_le_zpow_right₀ one_le_two hless)
            (by positivity) (by positivity)

include hx in
/-- Rounding to floating point adds at most one part in 2 ^ 53, or half of the least number. -/
theorem nearest_le : x.nearest ≤ x.size + x.size / 2 ^ 53 + 2 ^ (Binary64.leastExponent - 1) := by
  have hround : x.nearest ≤ x.size + 2 ^ x.exponent / 2 :=
    Binary64.roundHalfEven_mul_zpow_le x.numerator hx x.exponent
  have hleast : (0 : ℚ) < 2 ^ (Binary64.leastExponent - 1) := by positivity
  rcases x.size_nonneg.eq_or_lt with hzero | hpositive
  · rw [nearest_eq_zero hx hzero.symm, ← hzero, zero_div, add_zero, zero_add]
    exact hleast.le
  rcases x.leastExponent_le.eq_or_lt with hsame | hexponent
  · have hpart : 0 ≤ x.size / 2 ^ 53 := by positivity
    rw [← hsame] at hround
    rw [zpow_sub_one₀ two_ne_zero]
    linarith
  · have hpower := zpow_le_size hx hpositive hexponent
    rw [zpow_add₀ two_ne_zero] at hpower
    have hpart : (2 : ℚ) ^ x.exponent / 2 ≤ x.size / 2 ^ 53 := by
      rw [div_le_div_iff₀ two_pos (by positivity)]
      norm_num at hpower ⊢
      linarith
    linarith

end Fraction

/-! ### Values of numbers -/

namespace Binary64

theorem ofFraction_eq {x : Fraction} (hnumerator : x.numerator ≠ 0) :
    ofFraction x =
      if x.units x.exponent = 2 ^ 53 then
        if x.exponent + 1 > 971 then infinite x.negative
        else finite x.negative (2 ^ 52) (x.exponent + 1)
      else if x.exponent > 971 then infinite x.negative
      else finite x.negative (x.units x.exponent) x.exponent := by
  rw [ofFraction, if_neg hnumerator]
  unfold Fraction.units Fraction.exponent
  simp only [Nat.pow_eq]
  split <;> rfl

/-- The value of the number that a fraction is rounded to. -/
theorem size_toFraction?_ofFraction {x value : Fraction}
    (hvalue : (ofFraction x).toFraction? = some value) :
    value.denominator ≠ 0 ∧ value.size = x.nearest := by
  have hfinite (mantissa : ℕ) (exponent : ℤ)
      (hsize : (mantissa : ℚ) * 2 ^ exponent = x.nearest)
      (hfound : (finite x.negative mantissa exponent).toFraction? = some value) :
      value.denominator ≠ 0 ∧ value.size = x.nearest := by
    obtain ⟨same, hsame, hne, hequal⟩ := exists_toFraction?_finite x.negative mantissa exponent
    obtain rfl := Option.some.inj (hsame.symm.trans hfound)
    exact ⟨hne, hequal.trans hsize⟩
  by_cases hnumerator : x.numerator = 0
  · rw [ofFraction, if_pos hnumerator] at hvalue
    refine hfinite 0 leastExponent ?_ hvalue
    rw [Fraction.nearest, Fraction.units, hnumerator, Nat.zero_mul]
    simp [roundHalfEven]
  rw [ofFraction_eq hnumerator] at hvalue
  by_cases hcarry : x.units x.exponent = 2 ^ 53
  · -- A carry moves one power of two from the digits to the exponent.
    rw [if_pos hcarry] at hvalue
    split at hvalue
    · cases hvalue
    · refine hfinite (2 ^ 52) (x.exponent + 1) ?_ hvalue
      rw [Fraction.nearest, hcarry, zpow_add₀ two_ne_zero]
      push_cast
      ring
  · rw [if_neg hcarry] at hvalue
    split at hvalue
    · cases hvalue
    · exact hfinite (x.units x.exponent) x.exponent rfl hvalue

end Binary64

end PixelFont.Number
