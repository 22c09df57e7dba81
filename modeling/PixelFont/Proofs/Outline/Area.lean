import PixelFont.Outline.Contour
import PixelFont.Proofs.Number.Exactness

/-!
The direction that a contour is told to have. The area behind it is summed in floating point, so
that it is the true one where no term and no sum is rounded. `signedArea_eq` and
`direction_eq_orientation` say so for contours whose terms leave room enough, and `direction_eq` for
terms within a bound.
-/

set_option autoImplicit false

namespace PixelFont

/-- The direction of a contour by twice its area, none where that is zero. -/
def Direction.ofArea (doubledArea : Int) : Option Direction :=
  if doubledArea < 0 then some .clockwise
  else if 0 < doubledArea then some .counterClockwise
  else none

namespace Contour

open Number

/-- Twice the signed area, which is an integer, without rounding. -/
def doubledArea (contour : Contour) : Int :=
  contour.areaTerms.sum

/-- The direction of traversal by the area without rounding. -/
def orientation (contour : Contour) : Option Direction :=
  Direction.ofArea contour.doubledArea

/-- Whether the terms of the area, all counted as positive, leave room for summing them without
rounding. -/
def LeavesRoom (contour : Contour) : Prop :=
  (contour.areaTerms.map Int.natAbs).sum < 2 ^ 53

variable {contour : Contour}

theorem natAbs_sum_le (terms : List Int) : terms.sum.natAbs ≤ (terms.map Int.natAbs).sum := by
  induction terms with
  | nil => exact Nat.zero_le _
  | cons term terms ih =>
    rw [List.sum_cons, List.map_cons, List.sum_cons]
    exact (Int.natAbs_add_le _ _).trans (Nat.add_le_add_left ih _)

theorem LeavesRoom.doubledArea_lt (hroom : contour.LeavesRoom) :
    contour.doubledArea.natAbs < 2 ^ 53 :=
  (natAbs_sum_le contour.areaTerms).trans_lt hroom

/-- Where the terms leave room the area is half of the exact sum. -/
theorem signedArea_eq (hroom : contour.LeavesRoom) :
    contour.signedArea = .ok ((Binary64.ofInt contour.doubledArea).divNat 2) := by
  have hsum : (Binary64.ofInt 0).addInts? contour.areaTerms =
      some (Binary64.ofInt (0 + contour.areaTerms.sum)) :=
    Binary64.addInts?_ofInt (by rwa [Int.natAbs_zero, Nat.zero_add])
  rw [signedArea, hsum, Int.zero_add]
  rfl

/-- Where the terms leave room the direction told is that of the exact area. -/
theorem direction_eq_orientation (hroom : contour.LeavesRoom) :
    contour.direction = .ok contour.orientation := by
  have hsmall := hroom.doubledArea_lt
  rw [direction, signedArea_eq hroom, Except.map, Binary64.isNegative_halve_ofInt hsmall,
    Binary64.isPositive_halve_ofInt hsmall]
  simp only [decide_eq_true_eq]
  rfl

/-- The direction told is that of the exact area if the terms of the area, as many as they are,
are small enough to be summed without rounding. -/
theorem direction_eq {bound : ℕ} (hterms : ∀ term ∈ contour.areaTerms, term.natAbs ≤ bound)
    (hbound : contour.areaTerms.length * bound < 2 ^ 53) :
    contour.direction = .ok
      (if contour.doubledArea < 0 then some .clockwise
      else if 0 < contour.doubledArea then some .counterClockwise
      else none) := by
  have hsum := List.sum_le_card_nsmul (contour.areaTerms.map Int.natAbs) bound
    (List.forall_mem_map.mpr hterms)
  rw [List.length_map, nsmul_eq_mul, Nat.cast_id] at hsum
  exact direction_eq_orientation (hsum.trans_lt hbound)

end Contour

end PixelFont
