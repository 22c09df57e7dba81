/-!
Rounding of a quotient of natural numbers to the nearest natural number, a quotient halfway
between two going to the even one. Main statements: the rounded value is within half a unit of
the quotient, and a quotient halfway between two numbers becomes even.
-/

set_option autoImplicit false

namespace PixelFont.Number

/-- The natural number nearest to a quotient, the even one of two. -/
def roundHalfEven (numerator denominator : Nat) : Nat :=
  let quotient := numerator / denominator
  let remainder := numerator % denominator
  if 2 * remainder < denominator then quotient
  else if denominator < 2 * remainder then quotient + 1
  else quotient + quotient % 2

/-- The rounded value is at most half a unit above the quotient. -/
theorem roundHalfEven_le (numerator denominator : Nat) (hd : 0 < denominator) :
    2 * denominator * roundHalfEven numerator denominator ≤ 2 * numerator + denominator := by
  have hdiv := Nat.div_add_mod numerator denominator
  have hmod := Nat.mod_lt numerator hd
  unfold roundHalfEven
  dsimp only
  rw [Nat.mul_assoc]
  split
  · omega
  · split
    · rw [Nat.mul_add]
      omega
    · rcases Nat.mod_two_eq_zero_or_one (numerator / denominator) with hparity | hparity <;>
        rw [hparity, Nat.mul_add] <;> omega

/-- The rounded value is at most half a unit below the quotient. -/
theorem le_roundHalfEven (numerator denominator : Nat) (hd : 0 < denominator) :
    2 * numerator ≤ 2 * denominator * roundHalfEven numerator denominator + denominator := by
  have hdiv := Nat.div_add_mod numerator denominator
  have hmod := Nat.mod_lt numerator hd
  unfold roundHalfEven
  dsimp only
  rw [Nat.mul_assoc]
  split
  · omega
  · split
    · rw [Nat.mul_add]
      omega
    · rcases Nat.mod_two_eq_zero_or_one (numerator / denominator) with hparity | hparity <;>
        rw [hparity, Nat.mul_add] <;> omega

/-- A quotient halfway between two numbers is rounded to the even one. -/
theorem even_roundHalfEven_of_half (numerator denominator : Nat)
    (hhalf : 2 * (numerator % denominator) = denominator) :
    roundHalfEven numerator denominator % 2 = 0 := by
  unfold roundHalfEven
  dsimp only
  rw [hhalf, if_neg (Nat.lt_irrefl _), if_neg (Nat.lt_irrefl _)]
  omega

end PixelFont.Number
