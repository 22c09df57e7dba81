import Mathlib.Algebra.BigOperators.Group.List.Basic
import Mathlib.Algebra.BigOperators.Ring.List
import Mathlib.Tactic.Linarith
import PixelFont.Outline.Mapping
import PixelFont.Proofs.Outline.Area
import PixelFont.Proofs.Raster.Area

/-!
The contours of a grid draw the grid. A unit square of the plane, at whatever place, lies in the
contour of a rectangle exactly if the rectangle contains the cell that the square belongs to
(`holdsSquare_contour`), so that the cover of a grid by rectangles is one of its filled cells by
contours. Every contour runs clockwise from its top left corner, and twice the areas add up to
twice the filled cells. Main statement: `contours_drawGrid`.
-/

set_option autoImplicit false

namespace PixelFont

namespace Box

/-- Whether a box holds the unit square whose lower left corner is given. -/
def holdsSquare (box : Box) (x y : Int) : Bool :=
  box.left ≤ x && x + 1 ≤ box.right && (box.bottom ≤ y && y + 1 ≤ box.top)

end Box

namespace Scale

variable {scale : Scale} (hpixel : 0 < scale.pixelSize)
include hpixel

theorem x_lt_x_iff {first second : Int} : scale.x first < scale.x second ↔ first < second :=
  Int.mul_lt_mul_right hpixel

theorem y_lt_y_iff {first second : Int} : scale.y first < scale.y second ↔ second < first := by
  rw [y, y, Int.mul_lt_mul_right hpixel]
  omega

theorem x_le_iff {column x : Int} : scale.x column ≤ x ↔ column ≤ x.fdiv scale.pixelSize := by
  rw [Int.fdiv_eq_ediv_of_nonneg _ hpixel.le, Int.le_ediv_iff_mul_le hpixel, Scale.x]

theorem lt_x_iff {column x : Int} : x < scale.x column ↔ x.fdiv scale.pixelSize < column := by
  rw [← not_le, ← not_le, x_le_iff hpixel]

theorem y_le_iff {row y : Int} :
    scale.y row ≤ y ↔ scale.baselineRow - row ≤ y.fdiv scale.pixelSize := by
  rw [Int.fdiv_eq_ediv_of_nonneg _ hpixel.le, Int.le_ediv_iff_mul_le hpixel, Scale.y]

theorem lt_y_iff {row y : Int} :
    y < scale.y row ↔ y.fdiv scale.pixelSize < scale.baselineRow - row := by
  rw [← not_le, ← not_le, y_le_iff hpixel]

end Scale

/-! ### The contour of a rectangle -/

namespace Rectangle

section Pixels

variable {scale : Scale} (hpixel : 0 < scale.pixelSize) (rectangle : Rectangle)
include hpixel

theorem box_contour :
    (rectangle.contour scale).box =
      ⟨scale.x rectangle.left, scale.y (rectangle.top + rectangle.height),
        scale.x (rectangle.left + rectangle.width), scale.y rectangle.top⟩ := by
  have hwide := (Scale.x_lt_x_iff hpixel).mpr (Int.lt_add_of_pos_right rectangle.left
    rectangle.width_pos)
  have hhigh := (Scale.y_lt_y_iff hpixel).mpr (Int.lt_add_of_pos_right rectangle.top
    rectangle.height_pos)
  simp only [contour, Contour.box, List.map_cons, List.map_nil, Box.ofPoint, Box.unionAll,
    List.foldl_cons, List.foldl_nil, Box.union, Box.mk.injEq]
  omega

/-- A unit square lies in the contour of a rectangle exactly if the rectangle contains the cell to
which the square belongs. -/
theorem holdsSquare_contour (x y : Int) :
    (rectangle.contour scale).box.holdsSquare x y =
      rectangle.contains (scale.baselineRow - 1 - y.fdiv scale.pixelSize)
        (x.fdiv scale.pixelSize) := by
  rw [Bool.eq_iff_iff, contains_eq_true_iff, box_contour hpixel, Box.holdsSquare]
  simp only [Bool.and_eq_true, decide_eq_true_eq, Int.add_one_le_iff, Scale.x_le_iff hpixel,
    Scale.lt_x_iff hpixel, Scale.y_le_iff hpixel, Scale.lt_y_iff hpixel]
  omega

end Pixels

theorem areaTerms_contour (scale : Scale) (rectangle : Rectangle) :
    let left := scale.x rectangle.left
    let right := scale.x (rectangle.left + rectangle.width)
    let top := scale.y rectangle.top
    let bottom := scale.y (rectangle.top + rectangle.height)
    (rectangle.contour scale).areaTerms =
      [left * top, -(right * top), right * bottom, -(right * top), right * bottom,
        -(left * bottom), left * top, -(left * bottom)] :=
  rfl

theorem doubledArea_contour (scale : Scale) (rectangle : Rectangle) :
    (rectangle.contour scale).doubledArea =
      -2 * scale.pixelSize * scale.pixelSize * rectangle.area := by
  rw [Contour.doubledArea, areaTerms_contour]
  simp only [List.sum_cons, List.sum_nil, Scale.x, Scale.y, area]
  ring

theorem doubledArea_contour_neg {scale : Scale} (hpixel : 0 < scale.pixelSize)
    (rectangle : Rectangle) : (rectangle.contour scale).doubledArea < 0 := by
  rw [doubledArea_contour, area]
  have hcells := Int.mul_pos rectangle.width_pos rectangle.height_pos
  have hsquare := Int.mul_pos (Int.mul_pos hpixel hpixel) hcells
  linarith

end Rectangle

/-! ### Direction -/

/-- A bound of the products of coordinates in the contours of a grid: its width by the greater
distance of its first and its last edge from the baseline. -/
def Grid.reach (grid : Grid) (scale : Scale) : ℕ :=
  grid.width * scale.pixelSize.natAbs *
    (max scale.baselineRow.natAbs (scale.baselineRow - grid.height).natAbs *
      scale.pixelSize.natAbs)

theorem Scale.natAbs_mul_le_reach (scale : Scale) {grid : Grid} {column row : Int}
    (hcolumn : 0 ≤ column ∧ column ≤ grid.width) (hrow : 0 ≤ row ∧ row ≤ grid.height) :
    (scale.x column * scale.y row).natAbs ≤ grid.reach scale := by
  rw [Int.natAbs_mul, Scale.x, Scale.y, Int.natAbs_mul, Int.natAbs_mul, Grid.reach]
  have hacross : column.natAbs ≤ grid.width := by omega
  have hdown : (scale.baselineRow - row).natAbs ≤
      max scale.baselineRow.natAbs (scale.baselineRow - grid.height).natAbs := by
    omega
  exact Nat.mul_le_mul (Nat.mul_le_mul_right _ hacross) (Nat.mul_le_mul_right _ hdown)

/-- The contour of a rectangle of a grid is told to be clockwise if the grid is near enough to the
baseline for its coordinates to be multiplied and summed without rounding. -/
theorem Rectangle.direction_contour {scale : Scale} (hpixel : 0 < scale.pixelSize) {grid : Grid}
    {rectangle : Rectangle} (hinside : rectangle.fitsIn grid.width grid.height = true)
    (hreach : 8 * grid.reach scale < 2 ^ 53) :
    (rectangle.contour scale).direction = .ok (some .clockwise) := by
  obtain ⟨hleft, htop, hright, hbottom⟩ := fitsIn_eq_true_iff.mp hinside
  have hwidth := rectangle.width_pos
  have hheight := rectangle.height_pos
  have hterms : ∀ term ∈ (rectangle.contour scale).areaTerms,
      term.natAbs ≤ grid.reach scale := by
    have hcorner {column row : Int} (hcolumn : 0 ≤ column ∧ column ≤ grid.width)
        (hrow : 0 ≤ row ∧ row ≤ grid.height) :
        (scale.x column * scale.y row).natAbs ≤ grid.reach scale :=
      scale.natAbs_mul_le_reach hcolumn hrow
    have hleftTop := hcorner ⟨hleft, by omega⟩ ⟨htop, by omega⟩
    have hrightTop := hcorner ⟨by omega, hright⟩ ⟨htop, by omega⟩
    have hrightBottom := hcorner ⟨by omega, hright⟩ ⟨by omega, hbottom⟩
    have hleftBottom := hcorner ⟨hleft, by omega⟩ ⟨by omega, hbottom⟩
    simp only [areaTerms_contour, List.forall_mem_cons, Int.natAbs_neg]
    exact ⟨hleftTop, hrightTop, hrightBottom, hrightTop, hrightBottom, hleftBottom, hleftTop,
      hleftBottom, by simp⟩
  rw [Contour.direction_eq hterms hreach, if_pos (rectangle.doubledArea_contour_neg hpixel)]

/-! ### The contours of a grid -/

/-- A contour of four points that runs around its box from the top left corner to the top right,
the bottom right and the bottom left one. -/
structure Contour.RunsAroundBox (contour : Contour) : Prop where
  points : contour.points = [⟨contour.box.left, contour.box.top⟩,
    ⟨contour.box.right, contour.box.top⟩, ⟨contour.box.right, contour.box.bottom⟩,
    ⟨contour.box.left, contour.box.bottom⟩]
  wide : contour.box.left < contour.box.right
  high : contour.box.bottom < contour.box.top

theorem Rectangle.runsAroundBox_contour {scale : Scale} (hpixel : 0 < scale.pixelSize)
    (rectangle : Rectangle) : (rectangle.contour scale).RunsAroundBox := by
  refine ⟨?_, ?_, ?_⟩ <;> rw [box_contour hpixel]
  · rfl
  · exact (Scale.x_lt_x_iff hpixel).mpr (Int.lt_add_of_pos_right _ rectangle.width_pos)
  · exact (Scale.y_lt_y_iff hpixel).mpr (Int.lt_add_of_pos_right _ rectangle.height_pos)

/-- The contours of a rectangular grid, at any scale and baseline: exactly one holds each unit
square of a filled cell and none any other square; each runs around its box, clockwise by its
area, and the areas add up to that of the filled cells. The direction told is clockwise as long as
the grid is near enough to the baseline. -/
theorem contours_drawGrid {grid : Grid} (hgrid : grid.isRectangular = true) {scale : Scale}
    (hpixel : 1 ≤ scale.pixelSize) :
    ∃ rectangles, grid.compact = .ok rectangles ∧
      (∀ x y : Int,
        (Rectangle.contours scale rectangles).countP (fun contour ↦ contour.box.holdsSquare x y) =
          if grid.fills (scale.baselineRow - 1 - y.fdiv scale.pixelSize)
            (x.fdiv scale.pixelSize) then 1 else 0) ∧
      (∀ contour ∈ Rectangle.contours scale rectangles,
        contour.RunsAroundBox ∧ contour.doubledArea < 0) ∧
      ((Rectangle.contours scale rectangles).map Contour.doubledArea).sum =
        -2 * scale.pixelSize * scale.pixelSize * grid.filledCount ∧
      (8 * grid.reach scale < 2 ^ 53 →
        ∀ contour ∈ Rectangle.contours scale rectangles,
          contour.direction = .ok (some .clockwise)) := by
  have hcover := Grid.isExactCover_stacked hgrid
  refine ⟨_, Grid.compact_eq_ok hgrid, fun x y ↦ ?_, ?_, ?_, fun hreach ↦ ?_⟩
  · rw [Rectangle.contours, List.countP_map, ← hcover.countP_contains]
    exact List.countP_congr fun rectangle _ ↦ by
      rw [Function.comp_apply, rectangle.holdsSquare_contour hpixel]
  · exact List.forall_mem_map.mpr fun rectangle _ ↦
      ⟨rectangle.runsAroundBox_contour hpixel, rectangle.doubledArea_contour_neg hpixel⟩
  · rw [Rectangle.contours, List.map_map, ← hcover.sum_area hgrid, ← List.sum_map_mul_left]
    exact congrArg List.sum <| List.map_congr_left fun rectangle _ ↦
      rectangle.doubledArea_contour scale
  · exact List.forall_mem_map.mpr fun rectangle hmem ↦
      Rectangle.direction_contour hpixel (hcover.inside rectangle hmem) hreach

/-- A corner of three cells below the baseline, whose contours have the area of six half cells. -/
theorem contours_drawGrid_corner :
    Grid.isRectangular [[true, false], [true, true]] = true ∧ (1 : Int) ≤ 120 ∧
      ∃ rectangles, Grid.compact [[true, false], [true, true]] = .ok rectangles ∧
        (Rectangle.contours ⟨120, 0⟩ rectangles).countP
          (fun contour ↦ contour.box.holdsSquare 120 (-121)) = 1 ∧
        (Rectangle.contours ⟨120, 0⟩ rectangles).countP
          (fun contour ↦ contour.box.holdsSquare 120 (-120)) = 0 ∧
        ((Rectangle.contours ⟨120, 0⟩ rectangles).map Contour.doubledArea).sum = -86400 ∧
        ∀ contour ∈ Rectangle.contours ⟨120, 0⟩ rectangles,
          contour.RunsAroundBox ∧ contour.direction = .ok (some .clockwise) := by
  have hgrid : Grid.isRectangular [[true, false], [true, true]] = true := rfl
  have hpixel : 1 ≤ (⟨120, 0⟩ : Scale).pixelSize := by decide
  obtain ⟨rectangles, hrectangles, hsquares, hcontours, hsum, hdirection⟩ :=
    contours_drawGrid hgrid hpixel
  refine ⟨hgrid, hpixel, ?_⟩
  exact ⟨rectangles, hrectangles, hsquares 120 (-121), hsquares 120 (-120), hsum,
    fun contour hmem ↦ ⟨(hcontours contour hmem).1, hdirection (by decide) contour hmem⟩⟩

/-- Far from the baseline the direction told may be the wrong one: the products of coordinates are
rounded, and the area of a contour of two cells becomes positive. -/
theorem direction_contour_farBaseline :
    (Grid.compact [[false, true, true]]).map (fun rectangles ↦
        (Rectangle.contours ⟨1, 9007199254740990⟩ rectangles).map fun contour ↦
          (contour.doubledArea, contour.direction)) =
      .ok [(-4, .ok (some .counterClockwise))] := by
  rw [Grid.compact_eq_ok rfl]
  decide +kernel

end PixelFont
