import Mathlib.Tactic.Positivity
import Mathlib.Tactic.Ring
import PixelFont.Number.Binary64
import PixelFont.Proofs.Number.Rounding

/-!
Integers in floating point. Integers of fewer than 54 binary digits are numbers, and a sum of them
is exact as long as it has no more digits: `add_ofInt`. A run of such sums is therefore exact where
its terms, all counted as positive, leave room for it (`addInts?_ofInt`), and halving its result
keeps the sign (`isNegative_halve_ofInt`, `isPositive_halve_ofInt`). Beyond the bound terms are
rounded, and then even the sign of a sum may come out wrong.
-/

set_option autoImplicit false

namespace PixelFont.Number

/-! ### Whole fractions -/

namespace Fraction

/-- A fraction that equals an integer and is written over a power of two. -/
structure IsWhole (x : Fraction) (number : Int) (power : ℕ) : Prop where
  negative : x.negative = decide (number < 0)
  numerator : x.numerator = number.natAbs * 2 ^ power
  denominator : x.denominator = 2 ^ power

theorem IsWhole.signedNumerator {x : Fraction} {number : Int} {power : ℕ}
    (hx : x.IsWhole number power) : x.signedNumerator = number * 2 ^ power := by
  have hnumerator : (x.numerator : Int) = number.natAbs * 2 ^ power := by
    rw [hx.numerator]
    push_cast
    rfl
  rw [Fraction.signedNumerator, hx.negative, hnumerator]
  by_cases hsign : number < 0
  · rw [if_pos (decide_eq_true hsign), Int.ofNat_natAbs_of_nonpos (Int.le_of_lt hsign), neg_mul,
      neg_neg]
  · rw [if_neg (by simpa using hsign), Int.natAbs_of_nonneg (Int.not_lt.mp hsign)]

/-- Fractions that equal integers add up to one that equals the sum. -/
theorem IsWhole.add {x y : Fraction} {first second : Int} {j k : ℕ} (hx : x.IsWhole first j)
    (hy : y.IsWhole second k) : (x.add y).IsWhole (first + second) (j + k) := by
  have htotal : x.signedNumerator * y.denominator + y.signedNumerator * x.denominator =
      (first + second) * 2 ^ (j + k) := by
    rw [hx.signedNumerator, hy.signedNumerator, hx.denominator, hy.denominator]
    push_cast
    ring
  have hpower : (0 : Int) < 2 ^ (j + k) := by positivity
  refine ⟨?_, ?_, ?_⟩
  · rw [Fraction.add, htotal]
    exact decide_eq_decide.mpr ⟨fun h ↦ neg_of_mul_neg_left h hpower.le,
      fun h ↦ mul_neg_of_neg_of_pos h hpower⟩
  · rw [Fraction.add, htotal, Int.natAbs_mul, Int.natAbs_pow]
    rfl
  · rw [Fraction.add, hx.denominator, hy.denominator, pow_add]

end Fraction

/-! ### Rounding -/

theorem log2_mul_two_pow {number : ℕ} (hnumber : number ≠ 0) (power : ℕ) :
    (number * 2 ^ power).log2 = number.log2 + power := by
  have hpower : 0 < 2 ^ power := Nat.two_pow_pos power
  refine (Nat.log2_eq_iff (Nat.mul_ne_zero hnumber hpower.ne')).mpr ⟨?_, ?_⟩
  · rw [pow_add]
    exact Nat.mul_le_mul_right _ (Nat.log2_self_le hnumber)
  · rw [Nat.add_right_comm, pow_add]
    exact Nat.mul_lt_mul_of_pos_right Nat.lt_log2_self hpower

namespace Binary64

/-- The exponent of an integer, halved or not, is told by its length. -/
theorem exponentOf_mul_two_pow {number : ℕ} (hnumber : number ≠ 0) (power : ℕ) {halvings : ℕ}
    (hhalvings : halvings ≤ 1022) :
    exponentOf (number * 2 ^ power) (2 ^ (power + halvings)) =
      (number.log2 : Int) - halvings - 52 := by
  have hguess : (((number * 2 ^ power).log2 : ℕ) : Int) - ((2 ^ (power + halvings)).log2 : ℕ) =
      (number.log2 : Int) - halvings := by
    rw [log2_mul_two_pow hnumber, Nat.log2_two_pow]
    push_cast
    ring
  -- The leading digit of the quotient is where the lengths of its parts say.
  have hreached : 2 ^ (power + halvings) * 2 ^ ((number.log2 : Int) - halvings).toNat ≤
      number * 2 ^ power * 2 ^ (-((number.log2 : Int) - halvings)).toNat := by
    calc 2 ^ (power + halvings) * 2 ^ ((number.log2 : Int) - halvings).toNat
        = 2 ^ number.log2 * 2 ^ power * 2 ^ (-((number.log2 : Int) - halvings)).toNat := by
          rw [← pow_add, ← pow_add, ← pow_add]
          congr 1
          omega
      _ ≤ number * 2 ^ power * 2 ^ (-((number.log2 : Int) - halvings)).toNat :=
          Nat.mul_le_mul_right _ (Nat.mul_le_mul_right _ (Nat.log2_self_le hnumber))
  rw [exponentOf, hguess]
  simp only [Nat.pow_eq, if_pos hreached, leastExponent]
  omega

/-- An integer of at most 53 binary digits, halved some times, is a number: no digit is lost. -/
theorem ofFraction_mul_two_pow (negative : Bool) {number : ℕ} (hnumber : number ≠ 0)
    (hsmall : number < 2 ^ 53) (power : ℕ) {halvings : ℕ} (hhalvings : halvings ≤ 1022) :
    ofFraction ⟨negative, number * 2 ^ power, 2 ^ (power + halvings)⟩ =
      finite negative (number * 2 ^ (52 - number.log2)) ((number.log2 : Int) - halvings - 52) := by
  have hlength : number.log2 ≤ 52 := Nat.lt_succ_iff.mp ((Nat.log2_lt hnumber).mpr hsmall)
  have hbelow : number * 2 ^ (52 - number.log2) < 2 ^ 53 := by
    calc number * 2 ^ (52 - number.log2)
        < 2 ^ (number.log2 + 1) * 2 ^ (52 - number.log2) :=
          Nat.mul_lt_mul_of_pos_right Nat.lt_log2_self (Nat.two_pow_pos _)
      _ = 2 ^ 53 := by
          rw [← pow_add]
          congr 1
          omega
  have hdigits : number * 2 ^ power * 2 ^ (-((number.log2 : Int) - halvings - 52)).toNat =
      number * 2 ^ (52 - number.log2) *
        (2 ^ (power + halvings) * 2 ^ ((number.log2 : Int) - halvings - 52).toNat) := by
    rw [mul_assoc, mul_assoc, ← pow_add, ← pow_add, ← pow_add]
    congr 2
    omega
  have hmantissa := roundHalfEven_mul (number * 2 ^ (52 - number.log2))
    (Nat.mul_pos (Nat.two_pow_pos (power + halvings))
      (Nat.two_pow_pos ((number.log2 : Int) - halvings - 52).toNat))
  have hnonzero : number * 2 ^ power ≠ 0 := Nat.mul_ne_zero hnumber (Nat.two_pow_pos power).ne'
  have hexponent : ¬ (number.log2 : Int) - halvings - 52 > 971 := by omega
  rw [ofFraction]
  simp only [Nat.pow_eq, hnonzero, exponentOf_mul_two_pow hnumber power hhalvings, hdigits,
    hmantissa, hbelow.ne, hexponent, if_false]

/-- The value of an integer halved some times, as a number, is what it was before. -/
theorem exists_toFraction?_mul_two_pow (negative : Bool) {number : ℕ} (hsmall : number < 2 ^ 53)
    (power : ℕ) {halvings : ℕ} (hhalvings : halvings ≤ 1022) :
    ∃ other, (ofFraction ⟨negative, number * 2 ^ power, 2 ^ (power + halvings)⟩).toFraction? =
      some ⟨negative, number * 2 ^ other, 2 ^ (other + halvings)⟩ := by
  by_cases hnumber : number = 0
  · subst hnumber
    refine ⟨1074 - halvings, ?_⟩
    have hpower : (-leastExponent).toNat = 1074 - halvings + halvings := by
      rw [leastExponent]
      omega
    simp only [ofFraction, Nat.zero_mul, if_true, toFraction?, Nat.pow_eq, hpower]
  · have hlength : number.log2 ≤ 52 := Nat.lt_succ_iff.mp ((Nat.log2_lt hnumber).mpr hsmall)
    refine ⟨52 - number.log2, ?_⟩
    have hwhole : ((number.log2 : Int) - halvings - 52).toNat = 0 := by omega
    have hpower : (-((number.log2 : Int) - halvings - 52)).toNat =
        52 - number.log2 + halvings := by
      omega
    rw [ofFraction_mul_two_pow negative hnumber hsmall power hhalvings]
    simp only [toFraction?, Nat.pow_eq, hwhole, hpower, pow_zero, Nat.mul_one]

/-! ### Sums of integers -/

theorem ofFraction_of_isWhole {x : Fraction} {number : Int} {power : ℕ}
    (hx : x.IsWhole number power) (hsmall : number.natAbs < 2 ^ 53) :
    ofFraction x = ofInt number := by
  obtain ⟨negative, numerator, denominator⟩ := x
  obtain ⟨rfl, rfl, rfl⟩ := hx
  by_cases hnumber : number = 0
  · subst hnumber
    simp [ofInt, ofFraction, Fraction.ofInt]
  · have hne : number.natAbs ≠ 0 := Int.natAbs_ne_zero.mpr hnumber
    have hover := ofFraction_mul_two_pow (decide (number < 0)) hne hsmall power (Nat.zero_le 1022)
    have hplain := ofFraction_mul_two_pow (decide (number < 0)) hne hsmall 0 (Nat.zero_le 1022)
    rw [Nat.add_zero] at hover hplain
    rw [hover, ofInt, Fraction.ofInt, ← hplain, pow_zero, Nat.mul_one]

/-- The value of an integer as a number is that integer. -/
theorem toFraction?_ofInt {number : Int} (hsmall : number.natAbs < 2 ^ 53) :
    ∃ x power, (ofInt number).toFraction? = some x ∧ x.IsWhole number power := by
  obtain ⟨power, hvalue⟩ := exists_toFraction?_mul_two_pow (decide (number < 0)) hsmall 0
    (Nat.zero_le 1022)
  rw [pow_zero, Nat.mul_one] at hvalue
  exact ⟨_, power, hvalue, rfl, rfl, rfl⟩

theorem add_of_toFraction? {x y : Binary64} {a b : Fraction} (hx : x.toFraction? = some a)
    (hy : y.toFraction? = some b) : x.add y = ofFraction (a.add b) := by
  cases x <;> cases y <;> simp_all [toFraction?, add, lift]

/-- A sum of integers that stays below the bound is exact. -/
theorem add_ofInt {first second : Int} (hfirst : first.natAbs < 2 ^ 53)
    (hsecond : second.natAbs < 2 ^ 53) (hsum : (first + second).natAbs < 2 ^ 53) :
    (ofInt first).add (ofInt second) = ofInt (first + second) := by
  obtain ⟨a, j, hfirstValue, ha⟩ := toFraction?_ofInt hfirst
  obtain ⟨b, k, hsecondValue, hb⟩ := toFraction?_ofInt hsecond
  rw [add_of_toFraction? hfirstValue hsecondValue, ofFraction_of_isWhole (ha.add hb) hsum]

/-- A run of sums of integers is exact if the integers, all counted as positive, leave room. -/
theorem addInts?_ofInt {numbers : List Int} {start : Int}
    (hroom : start.natAbs + (numbers.map Int.natAbs).sum < 2 ^ 53) :
    (ofInt start).addInts? numbers = some (ofInt (start + numbers.sum)) := by
  induction numbers generalizing start with
  | nil => rw [addInts?, List.sum_nil, add_zero]
  | cons number numbers ih =>
    rw [List.map_cons, List.sum_cons] at hroom
    have hsum : (start + number).natAbs ≤ start.natAbs + number.natAbs :=
      Int.natAbs_add_le start number
    have hexact : (ofInt start).add (ofInt number) = ofInt (start + number) :=
      add_ofInt (by omega) (by omega) (by omega)
    have hsmall : number.natAbs < 2 ^ 53 := by omega
    obtain ⟨x, power, hvalue, -⟩ := toFraction?_ofInt hsmall
    rw [addInts?]
    cases hrounded : ofInt number with
    | finite negative mantissa exponent =>
      dsimp only
      rw [← hrounded, hexact, ih (by omega), List.sum_cons, Int.add_assoc]
    | infinite negative => simp [hrounded, toFraction?] at hvalue
    | nan => simp [hrounded, toFraction?] at hvalue

/-! ### The sign of half an integer -/

/-- Half of an integer that is not zero has its sign and is not zero. -/
theorem halve_ofInt {number : Int} (hnumber : number ≠ 0) (hsmall : number.natAbs < 2 ^ 53) :
    ∃ mantissa exponent, mantissa ≠ 0 ∧
      (ofInt number).divNat 2 = finite (decide (number < 0)) mantissa exponent := by
  obtain ⟨x, power, hvalue, hx⟩ := toFraction?_ofInt hsmall
  have hne : number.natAbs ≠ 0 := Int.natAbs_ne_zero.mpr hnumber
  have hhalf : x.divNat 2 =
      ⟨decide (number < 0), number.natAbs * 2 ^ power, 2 ^ (power + 1)⟩ := by
    rw [Fraction.divNat, hx.negative, hx.numerator, hx.denominator, pow_succ]
  have hrounded :=
    ofFraction_mul_two_pow (decide (number < 0)) hne hsmall power (show 1 ≤ 1022 by decide)
  have hmantissa : number.natAbs * 2 ^ (52 - number.natAbs.log2) ≠ 0 :=
    Nat.mul_ne_zero hne (Nat.two_pow_pos _).ne'
  refine ⟨_, _, hmantissa, Eq.trans ?_ hrounded⟩
  rw [divNat, hvalue, ← hhalf]

theorem isNegative_halve_ofInt {number : Int} (hsmall : number.natAbs < 2 ^ 53) :
    ((ofInt number).divNat 2).isNegative = decide (number < 0) := by
  by_cases hnumber : number = 0
  · subst hnumber
    decide
  · obtain ⟨mantissa, exponent, hmantissa, hhalf⟩ := halve_ofInt hnumber hsmall
    rw [hhalf]
    simp [isNegative, hmantissa]

theorem isPositive_halve_ofInt {number : Int} (hsmall : number.natAbs < 2 ^ 53) :
    ((ofInt number).divNat 2).isPositive = decide (0 < number) := by
  by_cases hnumber : number = 0
  · subst hnumber
    decide
  · obtain ⟨mantissa, exponent, hmantissa, hhalf⟩ := halve_ofInt hnumber hsmall
    have hsign : (!decide (number < 0)) = decide (0 < number) := by
      rw [← decide_not]
      exact decide_eq_decide.mpr (by omega)
    rw [hhalf]
    simp [isPositive, hmantissa, hsign]

end Binary64

end PixelFont.Number
