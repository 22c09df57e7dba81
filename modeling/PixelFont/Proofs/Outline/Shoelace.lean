import Mathlib.Data.List.Rotate
import PixelFont.Proofs.Outline.Area

/-!
The laws of the shoelace sum. Twice the signed area is a sum over the edges of a contour, one turn
for each, and so it is for contours of fewer than three points, whose turns cancel
(`doubledArea_eq_sum_turn`). Going round from another point rotates the edges and going round the
other way swaps their ends; moving all points changes the turns by differences that telescope around
the contour (`sum_edges_sub`). The sums in floating point follow these laws wherever the terms leave
room for them, which neither of the first two changes. Main statement: `Contour.shoelace_laws`.
-/

set_option autoImplicit false

namespace PixelFont

namespace Direction

/-- The other direction. -/
def opposite : Direction → Direction
  | clockwise => counterClockwise
  | counterClockwise => clockwise

theorem ofArea_neg (doubledArea : Int) :
    ofArea (-doubledArea) = (ofArea doubledArea).map opposite := by
  rcases lt_trichotomy doubledArea 0 with hsign | rfl | hsign
  · have hother : ¬ -doubledArea < 0 := by omega
    have hpositive : 0 < -doubledArea := by omega
    simp only [ofArea, if_pos hsign, if_neg hother, if_pos hpositive]
    rfl
  · rfl
  · have hother : ¬ doubledArea < 0 := by omega
    have hnegative : -doubledArea < 0 := by omega
    simp only [ofArea, if_neg hother, if_pos hsign, if_pos hnegative]
    rfl

theorem ofArea_eq_none_iff {doubledArea : Int} : ofArea doubledArea = none ↔ doubledArea = 0 := by
  rw [ofArea]
  split
  · simp only [reduceCtorEq, false_iff]
    omega
  · split
    · simp only [reduceCtorEq, false_iff]
      omega
    · simp only [true_iff]
      omega

end Direction

/-- The point some font units to the right and some up. -/
def Point.translated (right up : Int) (point : Point) : Point :=
  ⟨point.x + right, point.y + up⟩

namespace Contour

open Number

/-- The contour from a later point on, the points before that one following the last. -/
def rotated (steps : ℕ) (contour : Contour) : Contour :=
  ⟨contour.points.rotate steps⟩

/-- The contour in the opposite direction. -/
def reversed (contour : Contour) : Contour :=
  ⟨contour.points.reverse⟩

/-- The contour some font units to the right and some up. -/
def translated (right up : Int) (contour : Contour) : Contour :=
  ⟨contour.points.map (Point.translated right up)⟩

/-! ### Turns -/

/-- What an edge adds to twice the area. -/
def turn (edge : Point × Point) : Int :=
  edge.1.x * edge.2.y - edge.2.x * edge.1.y

/-- What an edge adds to the terms of the area, all counted as positive. -/
def weight (edge : Point × Point) : ℕ :=
  (edge.1.x * edge.2.y).natAbs + (edge.2.x * edge.1.y).natAbs

theorem edges_eq (contour : Contour) :
    contour.edges = contour.points.zip (contour.points.rotate 1) := by
  unfold edges
  cases contour.points with
  | nil => rfl
  | cons point points => rw [List.rotate_eq_drop_append_take (by simp)]

/-- Twice the area is the sum of the turns. Two points or one have turns that cancel, so that their
having no terms makes no difference. -/
theorem doubledArea_eq_sum_turn (contour : Contour) :
    contour.doubledArea = (contour.edges.map turn).sum := by
  obtain ⟨points⟩ := contour
  match points with
  | [] => rfl
  | [point] => simp [doubledArea, areaTerms, edges, turn]
  | [first, second] => simp [doubledArea, areaTerms, edges, turn]
  | first :: second :: third :: rest =>
    have hmany : ¬ (first :: second :: third :: rest).length < 3 := by simp
    rw [doubledArea, areaTerms, if_neg hmany, List.flatMap_def, List.sum_flatten, List.map_map]
    refine congrArg List.sum (List.map_congr_left fun edge _ ↦ ?_)
    simp [turn, sub_eq_add_neg]

/-- The terms leave room exactly if the weights of the edges do, or there are none. -/
theorem leavesRoom_iff {contour : Contour} :
    contour.LeavesRoom ↔
      contour.points.length < 3 ∨ (contour.edges.map weight).sum < 2 ^ 53 := by
  rw [LeavesRoom, areaTerms]
  split
  · rename_i hfew
    exact iff_of_true (Nat.two_pow_pos 53) (Or.inl hfew)
  · rename_i hmany
    have hweights : ((contour.edges.flatMap fun edge ↦
        [edge.1.x * edge.2.y, -(edge.2.x * edge.1.y)]).map Int.natAbs).sum =
          (contour.edges.map weight).sum := by
      rw [List.map_flatMap, List.flatMap_def, List.sum_flatten, List.map_map]
      refine congrArg List.sum (List.map_congr_left fun edge _ ↦ ?_)
      simp [weight]
    rw [or_iff_right hmany, ← hweights]

/-! ### Another point to begin with -/

theorem edges_rotated (steps : ℕ) (contour : Contour) :
    (contour.rotated steps).edges = contour.edges.rotate steps := by
  rw [edges_eq, edges_eq, rotated, List.rotate_rotate, Nat.add_comm, ← List.rotate_rotate]
  exact (List.zipWith_rotate_distrib _ _ _ _ (List.length_rotate ..).symm).symm

theorem doubledArea_rotated (steps : ℕ) (contour : Contour) :
    (contour.rotated steps).doubledArea = contour.doubledArea := by
  rw [doubledArea_eq_sum_turn, doubledArea_eq_sum_turn, edges_rotated]
  exact ((contour.edges.rotate_perm steps).map turn).sum_eq

theorem LeavesRoom.rotated {contour : Contour} (hroom : contour.LeavesRoom) (steps : ℕ) :
    (contour.rotated steps).LeavesRoom := by
  have hweights := ((contour.edges.rotate_perm steps).map weight).sum_eq
  rw [leavesRoom_iff, edges_rotated, hweights, Contour.rotated, List.length_rotate]
  exact leavesRoom_iff.mp hroom

/-! ### The other way round -/

/-- A step back and a step forward. -/
theorem rotate_back_rotate {α : Type} (items : List α) :
    (items.rotate (items.length - 1 % items.length)).rotate 1 = items := by
  match items with
  | [] => rfl
  | [item] => simp
  | first :: second :: rest =>
    have hone : 1 % (first :: second :: rest).length = 1 := Nat.mod_eq_of_lt (by simp)
    rw [hone, List.rotate_rotate, Nat.sub_add_cancel (by simp), List.rotate_length]

/-- The edges of the reversed contour, the first of them put last, are those of the contour with
their ends swapped, from the last to the first. -/
theorem edges_reversed (contour : Contour) :
    contour.reversed.edges.reverse.rotate 1 = contour.edges.map Prod.swap := by
  have hback : contour.reversed.edges.reverse =
      contour.points.zip
        (contour.points.rotate (contour.points.length - 1 % contour.points.length)) := by
    rw [edges_eq, reversed, List.rotate_reverse, List.zip_eq_zipWith,
      ← List.reverse_zipWith (by simp), List.reverse_reverse, List.zip_eq_zipWith]
  rw [hback, edges_eq, List.zip_swap, List.zip_eq_zipWith,
    List.zipWith_rotate_distrib _ _ _ _ (List.length_rotate ..).symm, rotate_back_rotate,
    List.zip_eq_zipWith]

theorem sum_edges_reversed {α : Type} [AddCommMonoid α] (value : Point × Point → α)
    (contour : Contour) :
    (contour.reversed.edges.map value).sum =
      (contour.edges.map fun edge ↦ value edge.swap).sum := by
  have hperm : (contour.edges.map Prod.swap).Perm contour.reversed.edges := by
    rw [← edges_reversed]
    exact (List.rotate_perm _ 1).trans (List.reverse_perm _)
  rw [← (hperm.map value).sum_eq, List.map_map]
  rfl

theorem doubledArea_reversed (contour : Contour) :
    contour.reversed.doubledArea = -contour.doubledArea := by
  have hturn : (fun edge : Point × Point ↦ turn edge.swap) = fun edge ↦ -turn edge := by
    funext edge
    simp [turn]
  rw [doubledArea_eq_sum_turn, doubledArea_eq_sum_turn, sum_edges_reversed, hturn, List.sum_neg,
    List.map_map]
  rfl

theorem LeavesRoom.reversed {contour : Contour} (hroom : contour.LeavesRoom) :
    contour.reversed.LeavesRoom := by
  have hweight : (fun edge : Point × Point ↦ weight edge.swap) = weight := by
    funext edge
    simp [weight, Nat.add_comm]
  rw [leavesRoom_iff, sum_edges_reversed, hweight, Contour.reversed, List.length_reverse]
  exact leavesRoom_iff.mp hroom

/-! ### Moving all points -/

/-- Differences along the edges telescope around the contour. -/
theorem sum_edges_sub (place : Point → Int) (contour : Contour) :
    (contour.edges.map fun edge ↦ place edge.2 - place edge.1).sum = 0 := by
  have hsplit : (contour.edges.map fun edge ↦ place edge.2 - place edge.1).sum =
      (contour.edges.map fun edge ↦ place edge.2).sum -
        (contour.edges.map fun edge ↦ place edge.1).sum := by
    simp only [sub_eq_add_neg, List.sum_map_add, List.sum_neg, List.map_map]
    rfl
  -- The ends of the edges are their beginnings in another order.
  have hends : (contour.edges.map Prod.snd).Perm (contour.edges.map Prod.fst) := by
    rw [edges_eq, List.map_snd_zip (by simp), List.map_fst_zip (by simp)]
    exact contour.points.rotate_perm 1
  have hsame := (hends.map place).sum_eq
  rw [List.map_map, List.map_map] at hsame
  rw [hsplit]
  exact sub_eq_zero.mpr hsame

theorem edges_translated (right up : Int) (contour : Contour) :
    (contour.translated right up).edges =
      contour.edges.map (Prod.map (Point.translated right up) (Point.translated right up)) := by
  rw [edges_eq, edges_eq, translated, ← List.map_rotate, List.zip_map]

theorem doubledArea_translated (right up : Int) (contour : Contour) :
    (contour.translated right up).doubledArea = contour.doubledArea := by
  -- A turn changes by how far a linear form of its ends goes along the edge.
  let place (point : Point) : Int := right * point.y - up * point.x
  have hturn (edge : Point × Point) :
      turn (Prod.map (Point.translated right up) (Point.translated right up) edge) =
        turn edge + (place edge.2 - place edge.1) := by
    dsimp only [turn, Prod.map, Point.translated, place]
    ring
  rw [doubledArea_eq_sum_turn, doubledArea_eq_sum_turn, edges_translated, List.map_map]
  calc (contour.edges.map
          (turn ∘ Prod.map (Point.translated right up) (Point.translated right up))).sum
      = (contour.edges.map fun edge ↦ turn edge + (place edge.2 - place edge.1)).sum :=
        congrArg List.sum (List.map_congr_left fun edge _ ↦ hturn edge)
    _ = (contour.edges.map turn).sum := by
        rw [List.sum_map_add, sum_edges_sub place, add_zero]

/-! ### The laws -/

/-- Without rounding, twice the signed area of a contour of any number of points and the direction
that it tells are the same from whichever point the contour begins and wherever it lies; going round
the other way the area changes its sign and the direction becomes the other one; and there is no
direction exactly if the area is zero. In floating point the area and the direction are these
wherever the terms leave room, and they do so from any other point and the other way round if they
do so at all. -/
theorem shoelace_laws (contour : Contour) :
    (∀ steps : ℕ, (contour.rotated steps).doubledArea = contour.doubledArea ∧
        (contour.rotated steps).orientation = contour.orientation) ∧
      (∀ right up : Int, (contour.translated right up).doubledArea = contour.doubledArea ∧
        (contour.translated right up).orientation = contour.orientation) ∧
      (contour.reversed.doubledArea = -contour.doubledArea ∧
        contour.reversed.orientation = contour.orientation.map Direction.opposite) ∧
      (contour.orientation = none ↔ contour.doubledArea = 0) ∧
      (contour.LeavesRoom →
        contour.signedArea = .ok ((Binary64.ofInt contour.doubledArea).divNat 2) ∧
          contour.direction = .ok contour.orientation ∧
          (∀ steps : ℕ, (contour.rotated steps).LeavesRoom) ∧ contour.reversed.LeavesRoom) := by
  refine ⟨fun steps ↦ ⟨doubledArea_rotated steps contour, ?_⟩,
    fun right up ↦ ⟨doubledArea_translated right up contour, ?_⟩,
    ⟨doubledArea_reversed contour, ?_⟩, Direction.ofArea_eq_none_iff,
    fun hroom ↦ ⟨signedArea_eq hroom, direction_eq_orientation hroom, hroom.rotated,
      hroom.reversed⟩⟩
  · rw [orientation, doubledArea_rotated]
    rfl
  · rw [orientation, doubledArea_translated]
    rfl
  · rw [orientation, doubledArea_reversed, Direction.ofArea_neg]
    rfl

/-- A triangle with its first corner repeated at the end, begun at its third point, moved over the
origin and gone round the other way. -/
theorem shoelace_laws_triangle :
    let triangle : Contour := ⟨[⟨0, 0⟩, ⟨4, 0⟩, ⟨0, 3⟩, ⟨0, 0⟩]⟩
    triangle.LeavesRoom ∧ triangle.direction = .ok (some .counterClockwise) ∧
      (triangle.rotated 2).doubledArea = 12 ∧ (triangle.translated (-3) (-1)).doubledArea = 12 ∧
      triangle.reversed.doubledArea = -12 ∧
      triangle.reversed.direction = .ok (some .clockwise) := by
  intro triangle
  have hroom : triangle.LeavesRoom := by
    rw [LeavesRoom]
    decide
  have harea : triangle.doubledArea = 12 := by decide
  have horientation : triangle.orientation = some .counterClockwise := by decide
  obtain ⟨hrotated, htranslated, ⟨hreversed, hopposite⟩, -, htold⟩ := shoelace_laws triangle
  obtain ⟨-, hdirection, -, hroomBack⟩ := htold hroom
  obtain ⟨-, hdirectionBack, -⟩ := (shoelace_laws triangle.reversed).2.2.2.2 hroomBack
  rw [horientation] at hdirection hopposite
  rw [hopposite] at hdirectionBack
  exact ⟨hroom, hdirection, (hrotated 2).1.trans harea, (htranslated (-3) (-1)).1.trans harea,
    hreversed.trans (congrArg Neg.neg harea), hdirectionBack⟩

end Contour

end PixelFont
