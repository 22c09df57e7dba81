import Mathlib.Tactic.Ring
import PixelFont.Number.Rounding

/-!
Laws of rounding to the nearest natural number. `IsNearestEven` says which number a quotient is
rounded to without saying how. Rounding keeps the order of quotients over one denominator
(`roundHalfEven_mono`): two quotients could change places only if both lay halfway between the same
two numbers, and those are not both even.
-/

set_option autoImplicit false

namespace PixelFont.Number

/-- A number at most half a unit from a quotient, and even where the quotient lies halfway between
two numbers. -/
structure IsNearestEven (numerator denominator value : ℕ) : Prop where
  le_value : 2 * numerator ≤ 2 * denominator * value + denominator
  value_le : 2 * denominator * value ≤ 2 * numerator + denominator
  even_of_half : 2 * numerator = 2 * denominator * value + denominator ∨
    2 * denominator * value = 2 * numerator + denominator → value % 2 = 0

theorem isNearestEven_roundHalfEven (numerator : ℕ) {denominator : ℕ} (hd : 0 < denominator) :
    IsNearestEven numerator denominator (roundHalfEven numerator denominator) := by
  refine ⟨le_roundHalfEven numerator denominator hd, roundHalfEven_le numerator denominator hd, ?_⟩
  intro hhalf
  apply even_roundHalfEven_of_half
  -- Neither the quotient without its remainder nor the number after it lies half a unit off.
  have hdiv := Nat.div_add_mod numerator denominator
  have hmod := Nat.mod_lt numerator hd
  by_contra hremainder
  rw [roundHalfEven] at hhalf
  split at hhalf
  · rw [Nat.mul_assoc] at hhalf
    omega
  · split at hhalf
    · rw [Nat.mul_assoc, Nat.mul_add] at hhalf
      omega
    · omega

variable {first second denominator : ℕ} {value other : ℕ}

/-- Numbers nearest to quotients over one denominator stand in the order of the quotients. -/
theorem IsNearestEven.le_of_le (hvalue : IsNearestEven first denominator value)
    (hother : IsNearestEven second denominator other) (hd : 0 < denominator)
    (hle : first ≤ second) : value ≤ other := by
  by_contra hgreater
  have hstep : 2 * denominator * (other + 1) ≤ 2 * denominator * value :=
    Nat.mul_le_mul_left _ (Nat.succ_le_of_lt (Nat.lt_of_not_le hgreater))
  rw [Nat.mul_add] at hstep
  have habove := hvalue.value_le
  have hbelow := hother.le_value
  -- Only if both quotients lie halfway between the two numbers is there room for the step.
  have hvalueEven := hvalue.even_of_half (Or.inr (by omega))
  have hotherEven := hother.even_of_half (Or.inl (by omega))
  have hnext : 2 * denominator * value = 2 * denominator * (other + 1) := by
    rw [Nat.mul_add]
    omega
  have hconsecutive : value = other + 1 := Nat.eq_of_mul_eq_mul_left (by omega) hnext
  omega

theorem roundHalfEven_mono (hd : 0 < denominator) (hle : first ≤ second) :
    roundHalfEven first denominator ≤ roundHalfEven second denominator :=
  (isNearestEven_roundHalfEven first hd).le_of_le (isNearestEven_roundHalfEven second hd) hd hle

/-- A quotient without a remainder is not rounded. -/
theorem roundHalfEven_mul (quotient : ℕ) {denominator : ℕ} (hd : 0 < denominator) :
    roundHalfEven (quotient * denominator) denominator = quotient := by
  rw [roundHalfEven, Nat.mul_mod_left, Nat.mul_div_cancel _ hd]
  exact if_pos hd

/-- A quotient that is at most some number is not rounded beyond it. -/
theorem roundHalfEven_le_of_le_mul {numerator bound : ℕ} (hd : 0 < denominator)
    (hle : numerator ≤ bound * denominator) : roundHalfEven numerator denominator ≤ bound := by
  have hmono := roundHalfEven_mono hd hle
  rwa [roundHalfEven_mul bound hd] at hmono

/-- A fraction that is not in lowest terms is rounded as the reduced one. -/
theorem roundHalfEven_mul_mul (numerator denominator : ℕ) {factor : ℕ} (hfactor : 0 < factor) :
    roundHalfEven (numerator * factor) (denominator * factor) =
      roundHalfEven numerator denominator := by
  rw [roundHalfEven, roundHalfEven, Nat.mul_div_mul_right _ _ hfactor, Nat.mul_mod_mul_right,
    ← Nat.mul_assoc]
  simp only [Nat.mul_lt_mul_right hfactor]

/-- Half of a number is rounded down where the number is one more than a multiple of four, and up
where it is odd otherwise. -/
theorem roundHalfEven_two (number : ℕ) :
    roundHalfEven number 2 = if number % 4 = 1 then number / 2 else number - number / 2 := by
  rw [roundHalfEven]
  split_ifs <;> omega

end PixelFont.Number
