import Mathlib.Algebra.Order.Archimedean.Real.Basic
import Mathlib.Data.Set.Prod
import Mathlib.Tactic.Linarith
import PixelFont.Proofs.Build.Outlines
import PixelFont.Proofs.Outline.Faithfulness

/-!
The part of the plane that an outline covers. Each contour covers its box, edges included, and a box
that is some columns wide and some rows high is made of the boxes of its cells. So the region of an
outline is the union of the filled cells of the raster, whatever rectangles these were stacked into
(`mem_region_outlineOf_iff`), and no point of it lies outside the box of the raster. Main statement:
`Compilation.staysWithin_outlineOf`.
-/

set_option autoImplicit false

namespace PixelFont

/-- The points of the plane that a box holds, its edges among them. -/
def Box.region (box : Box) : Set (ℝ × ℝ) :=
  Set.Icc (box.left : ℝ) box.right ×ˢ Set.Icc (box.bottom : ℝ) box.top

/-- The points of the plane that the contours of an outline cover. -/
def Outline.region (outline : Outline) : Set (ℝ × ℝ) :=
  ⋃ contour ∈ outline.contours, contour.box.region

/-- An outline stays within a box with the points of its contours and with all that they cover. -/
structure Outline.StaysWithin (box : Box) (outline : Outline) : Prop where
  points : ∀ contour ∈ outline.contours, ∀ point ∈ contour.points,
    (box.left ≤ point.x ∧ point.x ≤ box.right) ∧ box.bottom ≤ point.y ∧ point.y ≤ box.top
  region : outline.region ⊆ box.region

theorem Box.mem_region_iff {box : Box} {point : ℝ × ℝ} :
    point ∈ box.region ↔
      ((box.left : ℝ) ≤ point.1 ∧ point.1 ≤ box.right) ∧
        (box.bottom : ℝ) ≤ point.2 ∧ point.2 ≤ box.top :=
  Iff.rfl

theorem Outline.mem_region_iff {outline : Outline} {point : ℝ × ℝ} :
    point ∈ outline.region ↔ ∃ contour ∈ outline.contours, point ∈ contour.box.region := by
  simp only [region, Set.mem_iUnion, exists_prop]

/-! ### Boxes of cells -/

namespace Scale

/-- The box of some columns and rows of cells, from a column and a row on. -/
def box (scale : Scale) (left top width height : Int) : Box :=
  ⟨scale.x left, scale.y (top + height), scale.x (left + width), scale.y top⟩

/-- A place on a line lies in a stretch of intervals of one length exactly if it lies in one of
the intervals. -/
theorem mem_stretch_iff {side : ℝ} (hside : 0 < side) (start : ℤ) {count : ℤ} (hcount : 0 < count)
    (place : ℝ) :
    start * side ≤ place ∧ place ≤ (start + count) * side ↔
      ∃ step : ℤ, (start ≤ step ∧ step < start + count) ∧
        step * side ≤ place ∧ place ≤ (step + 1) * side := by
  constructor
  · rintro ⟨hstart, hend⟩
    -- The last edge of the stretch belongs to the last interval, as none begins there.
    refine ⟨min ⌊place / side⌋ (start + count - 1), ⟨?_, by omega⟩, ?_, ?_⟩
    · have hfloor : start ≤ ⌊place / side⌋ := Int.le_floor.mpr ((le_div_iff₀ hside).mpr hstart)
      omega
    · have hfloor : (⌊place / side⌋ : ℝ) * side ≤ place :=
        (le_div_iff₀ hside).mp (Int.floor_le _)
      have hmin : ((min ⌊place / side⌋ (start + count - 1) : ℤ) : ℝ) ≤ ⌊place / side⌋ :=
        Int.cast_le.mpr (min_le_left _ _)
      exact (mul_le_mul_of_nonneg_right hmin hside.le).trans hfloor
    · rcases min_choice ⌊place / side⌋ (start + count - 1) with hmin | hmin
      · rw [hmin]
        exact ((div_lt_iff₀ hside).mp (Int.lt_floor_add_one _)).le
      · rw [hmin]
        push_cast
        linarith
  · rintro ⟨step, ⟨hstart, hend⟩, hbelow, habove⟩
    have hfirst : (start : ℝ) ≤ step := Int.cast_le.mpr hstart
    have hlast : (step : ℝ) + 1 ≤ start + count := by exact_mod_cast hend
    exact ⟨(mul_le_mul_of_nonneg_right hfirst hside.le).trans hbelow,
      habove.trans (mul_le_mul_of_nonneg_right hlast hside.le)⟩

variable {scale : Scale} (hpixel : 0 < scale.pixelSize)
include hpixel

theorem between_columns_iff {left width : Int} (hwidth : 0 < width) {place : ℝ} :
    (scale.x left : ℝ) ≤ place ∧ place ≤ scale.x (left + width) ↔
      ∃ column : Int, (left ≤ column ∧ column < left + width) ∧
        (scale.x column : ℝ) ≤ place ∧ place ≤ scale.x (column + 1) := by
  have hstretch := mem_stretch_iff (Int.cast_pos.mpr hpixel) left hwidth place
  simp only [x]
  exact_mod_cast hstretch

theorem between_rows_iff {top height : Int} (hheight : 0 < height) {place : ℝ} :
    (scale.y (top + height) : ℝ) ≤ place ∧ place ≤ scale.y top ↔
      ∃ row : Int, (top ≤ row ∧ row < top + height) ∧
        (scale.y (row + 1) : ℝ) ≤ place ∧ place ≤ scale.y row := by
  have hstretch := mem_stretch_iff (Int.cast_pos.mpr hpixel)
    (scale.baselineRow - (top + height)) hheight place
  have hend : scale.baselineRow - (top + height) + height = scale.baselineRow - top := by omega
  norm_cast at hstretch
  rw [hend] at hstretch
  refine hstretch.trans ?_
  -- Rows are counted downwards, and the steps of the stretch upwards.
  constructor
  · rintro ⟨step, hstep, hplace⟩
    refine ⟨scale.baselineRow - 1 - step, by omega, ?_⟩
    have hbelow : scale.baselineRow - (scale.baselineRow - 1 - step + 1) = step := by omega
    have habove : scale.baselineRow - (scale.baselineRow - 1 - step) = step + 1 := by omega
    rw [y, y, hbelow, habove]
    exact hplace
  · rintro ⟨row, hrow, hplace⟩
    refine ⟨scale.baselineRow - (row + 1), by omega, ?_⟩
    have habove : scale.baselineRow - (row + 1) + 1 = scale.baselineRow - row := by omega
    rw [habove]
    exact hplace

/-- The box of some cells holds the points that the boxes of the cells hold. -/
theorem mem_region_box_iff {left top width height : Int} (hwidth : 0 < width) (hheight : 0 < height)
    {point : ℝ × ℝ} :
    point ∈ (scale.box left top width height).region ↔
      ∃ row column : Int,
        ((top ≤ row ∧ row < top + height) ∧ left ≤ column ∧ column < left + width) ∧
        point ∈ (scale.box column row 1 1).region := by
  simp only [Box.mem_region_iff, box]
  rw [between_columns_iff hpixel hwidth, between_rows_iff hpixel hheight]
  constructor
  · rintro ⟨⟨column, hcolumn, hx⟩, row, hrow, hy⟩
    exact ⟨row, column, ⟨hrow, hcolumn⟩, hx, hy⟩
  · rintro ⟨row, column, ⟨hrow, hcolumn⟩, hx, hy⟩
    exact ⟨⟨column, hcolumn, hx⟩, row, hrow, hy⟩

theorem x_le_x_iff {first second : Int} : scale.x first ≤ scale.x second ↔ first ≤ second :=
  Int.mul_le_mul_right hpixel

theorem y_le_y_iff {first second : Int} : scale.y first ≤ scale.y second ↔ second ≤ first := by
  rw [y, y, Int.mul_le_mul_right hpixel]
  omega

end Scale

/-! ### Boxes of contours -/

/-- A box lies in another one with its four sides. -/
structure Box.LiesIn (box other : Box) : Prop where
  left : other.left ≤ box.left
  bottom : other.bottom ≤ box.bottom
  right : box.right ≤ other.right
  top : box.top ≤ other.top

theorem Box.LiesIn.region_subset {box other : Box} (hinside : box.LiesIn other) :
    box.region ⊆ other.region := by
  apply Set.prod_mono
  · exact Set.Icc_subset_Icc (Int.cast_le.mpr hinside.left) (Int.cast_le.mpr hinside.right)
  · exact Set.Icc_subset_Icc (Int.cast_le.mpr hinside.bottom) (Int.cast_le.mpr hinside.top)

/-- Where the box of a contour that runs around it lies in another box, the points do. -/
theorem Contour.RunsAroundBox.points_of_liesIn {contour : Contour} (hruns : contour.RunsAroundBox)
    {box : Box} (hinside : contour.box.LiesIn box) :
    ∀ point ∈ contour.points,
      (box.left ≤ point.x ∧ point.x ≤ box.right) ∧ box.bottom ≤ point.y ∧ point.y ≤ box.top := by
  obtain ⟨hleft, hbottom, hright, htop⟩ := hinside
  have hwide := hruns.wide
  have hhigh := hruns.high
  rw [hruns.points]
  simp only [List.forall_mem_cons, List.not_mem_nil, false_imp_iff, implies_true, and_true]
  omega

namespace Rectangle

variable {scale : Scale} (hpixel : 0 < scale.pixelSize) {rectangle : Rectangle}
include hpixel

/-- The contour of a rectangle covers the boxes of the cells that the rectangle contains. -/
theorem mem_region_contour_iff {point : ℝ × ℝ} :
    point ∈ (rectangle.contour scale).box.region ↔
      ∃ row column : Int, rectangle.contains row column = true ∧
        point ∈ (scale.box column row 1 1).region := by
  rw [box_contour hpixel]
  simp only [contains_eq_true_iff]
  exact Scale.mem_region_box_iff hpixel rectangle.width_pos rectangle.height_pos

/-- The contour of a rectangle inside a raster lies in the box of the raster. -/
theorem liesIn_box {width height : Int} (hinside : rectangle.fitsIn width height = true) :
    (rectangle.contour scale).box.LiesIn (scale.box 0 0 width height) := by
  rw [fitsIn_eq_true_iff] at hinside
  rw [box_contour hpixel]
  constructor
  · exact (Scale.x_le_x_iff hpixel).mpr (by omega)
  · exact (Scale.y_le_y_iff hpixel).mpr (by omega)
  · exact (Scale.x_le_x_iff hpixel).mpr (by omega)
  · exact (Scale.y_le_y_iff hpixel).mpr (by omega)

end Rectangle

/-! ### Outlines -/

namespace Compilation

variable {settings : Settings} (hpixel : 0 < settings.scale.pixelSize) {glyph : Glyph}
include hpixel

/-- Every contour of the outline of a glyph runs around its box. -/
theorem runsAroundBox_outlineOf :
    ∀ contour ∈ (outlineOf settings glyph).contours, contour.RunsAroundBox :=
  List.forall_mem_map.mpr fun rectangle _ ↦ rectangle.runsAroundBox_contour hpixel

variable (hgrid : glyph.grid.isRectangular = true)
include hgrid

/-- The outline of a glyph covers the boxes of the filled cells of its raster. -/
theorem mem_region_outlineOf_iff {point : ℝ × ℝ} :
    point ∈ (outlineOf settings glyph).region ↔
      ∃ row column : Int, glyph.grid.fills row column = true ∧
        point ∈ (settings.scale.box column row 1 1).region := by
  have hcover := Grid.isExactCover_stacked hgrid
  rw [Outline.mem_region_iff]
  simp only [← hcover.exists_contains_iff]
  constructor
  · rintro ⟨contour, hcontour, hpoint⟩
    obtain ⟨rectangle, hrectangle, rfl⟩ := List.mem_map.mp hcontour
    obtain ⟨row, column, hcell, hpoint⟩ := (Rectangle.mem_region_contour_iff hpixel).mp hpoint
    exact ⟨row, column, ⟨rectangle, hrectangle, hcell⟩, hpoint⟩
  · rintro ⟨row, column, ⟨rectangle, hrectangle, hcell⟩, hpoint⟩
    exact ⟨_, List.mem_map_of_mem hrectangle,
      (Rectangle.mem_region_contour_iff hpixel).mpr ⟨row, column, hcell, hpoint⟩⟩

/-- The outline of a glyph stays within the box of its raster. -/
theorem staysWithin_outlineOf :
    (outlineOf settings glyph).StaysWithin
      (settings.scale.box 0 0 glyph.grid.width glyph.grid.height) := by
  have hinside : ∀ contour ∈ (outlineOf settings glyph).contours,
      contour.box.LiesIn (settings.scale.box 0 0 glyph.grid.width glyph.grid.height) :=
    List.forall_mem_map.mpr fun rectangle hrectangle ↦ Rectangle.liesIn_box hpixel
      ((Grid.isExactCover_stacked hgrid).inside rectangle hrectangle)
  constructor
  · intro contour hcontour
    exact (runsAroundBox_outlineOf hpixel contour hcontour).points_of_liesIn
      (hinside contour hcontour)
  · exact Set.iUnion₂_subset fun contour hcontour ↦ (hinside contour hcontour).region_subset

end Compilation

end PixelFont
