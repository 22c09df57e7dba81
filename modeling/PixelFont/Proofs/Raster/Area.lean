import Mathlib.Algebra.Ring.Int.Defs
import PixelFont.Proofs.Raster.ExactCover

/-!
The area of a cover. A rectangle inside a raster has as many cells as the raster has places that it
contains, and rectangles that cover a grid exactly have together as many cells as the grid has
filled ones. Both count places of the raster: the pairs of a rectangle and a place that it contains
are counted along the rectangles and along the places. Main statement: `IsExactCover.sum_area`.
-/

set_option autoImplicit false

namespace PixelFont

open Number

namespace Stretch

/-- A stretch within the first places holds as many of them as it is long. -/
theorem countP_range_holds {first length : Int} {count : ℕ} (hfirst : 0 ≤ first)
    (hlength : 0 ≤ length) (hwithin : first + length ≤ count) :
    ((List.range count).countP fun (place : ℕ) ↦ holds (first, length) place) =
      length.toNat := by
  -- The stretch may reach beyond the places on the way, which are added one by one.
  have hreach (n : ℕ) : ((List.range n).countP fun (place : ℕ) ↦ holds (first, length) place) =
      (min (n : Int) (first + length) - min (n : Int) first).toNat := by
    induction n with
    | zero =>
      rw [List.range_zero, List.countP_nil]
      omega
    | succ n ih =>
      have hplace : holds (first, length) (n : Int) = true ↔ first ≤ n ∧ n < first + length :=
        holds_eq_true_iff
      rw [List.range_succ, List.countP_append, ih, List.countP_singleton]
      by_cases hheld : first ≤ n ∧ n < first + length
      · rw [if_pos (hplace.mpr hheld)]
        omega
      · rw [if_neg (mt hplace.mp hheld)]
        omega
  rw [hreach]
  omega

end Stretch

/-! ### Places of a raster -/

/-- The places of a raster by row and column, row by row. -/
def rasterPlaces (width height : ℕ) : List (ℕ × ℕ) :=
  (List.range height).flatMap fun row ↦ (List.range width).map fun column ↦ (row, column)

theorem countP_rasterPlaces (width height : ℕ) (property : ℕ × ℕ → Bool) :
    (rasterPlaces width height).countP property =
      total (fun row ↦ (List.range width).countP fun column ↦ property (row, column))
        (List.range height) := by
  rw [rasterPlaces, Grouping.countP_flatMap_eq_total]
  refine Grouping.total_congr fun row _ ↦ ?_
  rw [List.countP_map]
  rfl

namespace Rectangle

theorem contains_eq_holds (rectangle : Rectangle) (row column : Int) :
    rectangle.contains row column =
      (Stretch.holds (rectangle.top, rectangle.height) row &&
        Stretch.holds (rectangle.left, rectangle.width) column) := by
  simp only [contains, Stretch.holds, Bool.and_assoc]

/-- A rectangle inside a raster contains as many of its places as it has cells. -/
theorem countP_rasterPlaces_contains {rectangle : Rectangle} {width height : ℕ}
    (hinside : rectangle.fitsIn width height = true) :
    (((rasterPlaces width height).countP fun place ↦
      rectangle.contains place.1 place.2 : ℕ) : Int) = rectangle.area := by
  obtain ⟨hleft, htop, hright, hbottom⟩ := fitsIn_eq_true_iff.mp hinside
  have hwidth := Int.le_of_lt rectangle.width_pos
  have hheight := Int.le_of_lt rectangle.height_pos
  have hrow (row : ℕ) :
      ((List.range width).countP fun (column : ℕ) ↦ rectangle.contains row column) =
        if Stretch.holds (rectangle.top, rectangle.height) row then rectangle.width.toNat
        else 0 := by
    have hcolumns := Stretch.countP_range_holds hleft hwidth hright
    simp only [contains_eq_holds]
    cases Stretch.holds (rectangle.top, rectangle.height) row with
    | false => simp
    | true => simpa using hcolumns
  rw [countP_rasterPlaces]
  simp only [hrow]
  rw [Grouping.total_ite fun (row : ℕ) ↦ Stretch.holds (rectangle.top, rectangle.height) row,
    Stretch.countP_range_holds htop hheight hbottom, area]
  push_cast
  rw [Int.toNat_of_nonneg hwidth, Int.toNat_of_nonneg hheight, Int.mul_comm]

end Rectangle

namespace Grid

/-- The number of filled cells. -/
def filledCount (grid : Grid) : ℕ :=
  grid.flatten.count true

theorem filledCount_eq_countP {grid : Grid} (hgrid : grid.isRectangular = true) :
    grid.filledCount =
      (rasterPlaces grid.width grid.height).countP fun place ↦ grid.isFilled place.1 place.2 := by
  have hflatten : grid.flatten = (List.range grid.height).flatMap fun row ↦
      (List.range grid.width).map (grid.isFilled row) := by
    conv_lhs => rw [← ofFunction_isFilled hgrid]
    rw [ofFunction, List.flatMap_def]
  rw [filledCount, hflatten, List.count, Grouping.countP_flatMap_eq_total, countP_rasterPlaces]
  refine Grouping.total_congr fun row _ ↦ ?_
  rw [List.countP_map]
  refine List.countP_congr fun column _ ↦ ?_
  rw [Function.comp_apply, beq_true]

/-- Rectangles that cover a rectangular grid exactly have as many cells as it has filled ones. -/
theorem IsExactCover.sum_area {grid : Grid} (hgrid : grid.isRectangular = true)
    {rectangles : List Rectangle} (hcover : IsExactCover grid rectangles) :
    (rectangles.map Rectangle.area).sum = grid.filledCount := by
  let places := rasterPlaces grid.width grid.height
  have hareas (covers : List Rectangle) (hcovers : ∀ r ∈ covers, r ∈ rectangles) :
      (covers.map Rectangle.area).sum =
        (total (fun r ↦ places.countP fun place ↦ r.contains place.1 place.2) covers : ℕ) := by
    induction covers with
    | nil => rfl
    | cons first rest ih =>
      rw [List.forall_mem_cons] at hcovers
      have hfirst := Rectangle.countP_rasterPlaces_contains (hcover.inside first hcovers.1)
      rw [List.map_cons, List.sum_cons, total, ih hcovers.2, ← hfirst]
      push_cast
      rfl
  have hfilled : total (fun place : ℕ × ℕ ↦
      rectangles.countP fun r ↦ r.contains place.1 place.2) places = grid.filledCount := by
    have hone := Grouping.total_ite (fun place : ℕ × ℕ ↦ grid.isFilled place.1 place.2) 1 places
    rw [Nat.mul_one] at hone
    rw [filledCount_eq_countP hgrid, ← hone]
    refine Grouping.total_congr fun place _ ↦ ?_
    rw [hcover.countP_contains, fills_natCast]
  rw [hareas rectangles fun _ h ↦ h, Grouping.total_countP_comm, hfilled]

end Grid

end PixelFont
