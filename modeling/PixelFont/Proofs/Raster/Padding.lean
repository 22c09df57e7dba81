import PixelFont.Outline.Mapping
import PixelFont.Proofs.Raster.CanonicalCover

/-!
A grid with empty columns and rows around it. Padding moves the filled cells and fills no other
(`Grid.fillsMoved_pad`). The canonical cover is described by which cells are filled and by how their
places compare, so where filled cells are moved the stacks of their runs are moved with them and
keep their order. As a grid has one canonical cover only, the cover of the padded grid is that of
the grid moved, whether a run ended at the edge of the raster or at an empty cell. Main statement:
`Grid.compact_pad`.
-/

set_option autoImplicit false

namespace PixelFont

/-- How many empty columns and rows are put around a grid. -/
structure Margins where
  left : ℕ
  top : ℕ
  right : ℕ
  bottom : ℕ
  deriving DecidableEq, Repr

/-- A list with copies of an item before it and after it. -/
def surrounded {α : Type} (before after : ℕ) (blank : α) (items : List α) : List α :=
  List.replicate before blank ++ items ++ List.replicate after blank

/-- The grid with empty columns and rows around it. -/
def Grid.pad (margins : Margins) (grid : Grid) : Grid :=
  surrounded margins.top margins.bottom
    (List.replicate (margins.left + grid.width + margins.right) false)
    (grid.map (surrounded margins.left margins.right false))

/-- A rectangle some columns to the right and some rows down. -/
def Rectangle.moved (right down : Int) (rectangle : Rectangle) : Rectangle :=
  { rectangle with left := rectangle.left + right, top := rectangle.top + down }

/-- A contour some font units to the right. -/
def Contour.movedRight (distance : Int) (contour : Contour) : Contour :=
  ⟨contour.points.map fun point ↦ { point with x := point.x + distance }⟩

/-! ### Cells moved -/

/-- Copies around a list bring in no item of a property that they do not have. -/
theorem exists_getElem?_surrounded_iff {α : Type} (property : α → Prop) {blank : α}
    (hblank : ¬ property blank) (before after : ℕ) (items : List α) (place : ℕ) :
    (∃ item, (surrounded before after blank items)[place]? = some item ∧ property item) ↔
      before ≤ place ∧ ∃ item, items[place - before]? = some item ∧ property item := by
  have hcopies (count index : ℕ) :
      ¬ ∃ item, (List.replicate count blank)[index]? = some item ∧ property item := by
    rintro ⟨item, hitem, hproperty⟩
    have hsame := List.eq_of_mem_replicate (List.mem_of_getElem? hitem)
    exact hblank (hsame ▸ hproperty)
  rw [surrounded, List.append_assoc]
  by_cases hbefore : before ≤ place
  · rw [List.getElem?_append_right (by simpa using hbefore), List.length_replicate,
      and_iff_right hbefore]
    by_cases hwithin : place - before < items.length
    · rw [List.getElem?_append_left hwithin]
    · have hbeyond : items[place - before]? = none :=
        List.getElem?_eq_none (Nat.le_of_not_lt hwithin)
      rw [List.getElem?_append_right (Nat.le_of_not_lt hwithin), hbeyond]
      exact iff_of_false (hcopies _ _) (by simp)
  · rw [List.getElem?_append_left (by simpa using hbefore)]
    exact iff_of_false (hcopies _ _) fun hplace ↦ hbefore hplace.1

namespace Grid

/-- The filled cells of another grid are those of this one, some columns to the right and some rows
down. -/
def FillsMoved (grid other : Grid) (right down : Int) : Prop :=
  ∀ row column : Int, other.fills (row + down) (column + right) = grid.fills row column

theorem isFilled_pad_iff {margins : Margins} {grid : Grid} {row column : ℕ} :
    (grid.pad margins).isFilled row column = true ↔
      margins.top ≤ row ∧ margins.left ≤ column ∧
        grid.isFilled (row - margins.top) (column - margins.left) = true := by
  have hempty (width : ℕ) : ¬ (List.replicate width false)[column]? = some true := fun hcell ↦
    Bool.false_ne_true (List.eq_of_mem_replicate (List.mem_of_getElem? hcell)).symm
  have hcolumn (cells : List Bool) :
      (surrounded margins.left margins.right false cells)[column]? = some true ↔
        margins.left ≤ column ∧ cells[column - margins.left]? = some true := by
    simpa using exists_getElem?_surrounded_iff (· = true) Bool.false_ne_true margins.left
      margins.right cells column
  simp only [isFilled_eq_true_iff, pad]
  rw [exists_getElem?_surrounded_iff (fun cells ↦ cells[column]? = some true) (hempty _)]
  simp only [List.getElem?_map, Option.map_eq_some_iff, exists_exists_and_eq_and, hcolumn]
  constructor
  · rintro ⟨hrow, cells, hcells, hleft, hcell⟩
    exact ⟨hrow, hleft, cells, hcells, hcell⟩
  · rintro ⟨hrow, hleft, cells, hcells, hcell⟩
    exact ⟨hrow, cells, hcells, hleft, hcell⟩

/-- Padding moves the filled cells by its left and its upper margin. -/
theorem fillsMoved_pad (margins : Margins) (grid : Grid) :
    grid.FillsMoved (grid.pad margins) margins.left margins.top := by
  intro row column
  rw [Bool.eq_iff_iff]
  simp only [fills, Bool.and_eq_true, decide_eq_true_eq, isFilled_pad_iff]
  have hplace : 0 ≤ row → 0 ≤ column →
      (row + margins.top).toNat - margins.top = row.toNat ∧
        (column + margins.left).toNat - margins.left = column.toNat := by
    omega
  constructor
  · rintro ⟨⟨hrow, hcolumn⟩, htop, hleft, hfilled⟩
    have hnonneg : 0 ≤ row ∧ 0 ≤ column := by omega
    rw [(hplace hnonneg.1 hnonneg.2).1, (hplace hnonneg.1 hnonneg.2).2] at hfilled
    exact ⟨hnonneg, hfilled⟩
  · rintro ⟨⟨hrow, hcolumn⟩, hfilled⟩
    rw [(hplace hrow hcolumn).1, (hplace hrow hcolumn).2]
    exact ⟨by omega, by omega, by omega, hfilled⟩

theorem isRectangular_pad {grid : Grid} (hgrid : grid.isRectangular = true) (margins : Margins) :
    (grid.pad margins).isRectangular = true := by
  refine isRectangular_of_forall_length (margins.left + grid.width + margins.right)
    fun cells hcells ↦ ?_
  simp only [pad, surrounded, List.mem_append, List.mem_replicate, List.mem_map] at hcells
  rcases hcells with (⟨-, rfl⟩ | ⟨original, horiginal, rfl⟩) | ⟨-, rfl⟩
  · exact List.length_replicate
  · have hwidth := isRectangular_iff.mp hgrid original horiginal
    simp only [List.length_append, List.length_replicate, hwidth]
  · exact List.length_replicate

end Grid

/-! ### Covers moved -/

namespace Stretch

theorem IsMaximal.moved {property other : Int → Prop} {distance : Int}
    (hother : ∀ place, other (place + distance) ↔ property place) {stretch : Int × Int}
    (hstretch : IsMaximal property stretch) :
    IsMaximal other (stretch.1 + distance, stretch.2) where
  length_pos := hstretch.length_pos
  property_of_holds := fun place hheld ↦ by
    rw [holds_eq_true_iff] at hheld
    have hback : place - distance + distance = place := Int.sub_add_cancel place distance
    rw [← hback, hother]
    exact hstretch.property_of_holds _ (holds_eq_true_iff.mpr (by omega))
  before := by
    have hplace : stretch.1 + distance - 1 = stretch.1 - 1 + distance := by omega
    rw [hplace, hother]
    exact hstretch.before
  after := by
    have hplace : stretch.1 + distance + stretch.2 = stretch.1 + stretch.2 + distance := by omega
    rw [hplace, hother]
    exact hstretch.after

/-- Where the places of a property are moved, its maximal stretches are moved with them. -/
theorem isMaximal_moved_iff {property other : Int → Prop} {distance : Int}
    (hother : ∀ place, other (place + distance) ↔ property place) (stretch : Int × Int) :
    IsMaximal other (stretch.1 + distance, stretch.2) ↔ IsMaximal property stretch := by
  refine ⟨fun hstretch ↦ ?_, IsMaximal.moved hother⟩
  have hback (place : Int) : property (place + -distance) ↔ other place := by
    rw [← hother, Int.neg_add_cancel_right]
  simpa using hstretch.moved hback

end Stretch

namespace Rectangle

theorem moved_neg (right down : Int) (rectangle : Rectangle) :
    (rectangle.moved (-right) (-down)).moved right down = rectangle := by
  simp only [moved, Int.neg_add_cancel_right]

theorem moved_injective (right down : Int) : Function.Injective (moved right down) := by
  intro first second hsame
  have hback := congrArg (moved (-right) (-down)) hsame
  simp only [moved, Int.add_neg_cancel_right] at hback
  exact hback

end Rectangle

namespace Grid

variable {grid other : Grid} {right down : Int} (hmoved : grid.FillsMoved other right down)
include hmoved

theorem FillsMoved.isRun_iff (row : Int) (columns : Int × Int) :
    other.IsRun (row + down) (columns.1 + right, columns.2) ↔ grid.IsRun row columns :=
  Stretch.isMaximal_moved_iff (fun column ↦ by rw [hmoved]) columns

theorem FillsMoved.isMaximalStack_iff {rectangle : Rectangle} :
    other.IsMaximalStack (rectangle.moved right down) ↔ grid.IsMaximalStack rectangle := by
  have hruns (row : Int) : other.IsRun (row + down) (rectangle.moved right down).columns ↔
      grid.IsRun row rectangle.columns := hmoved.isRun_iff row rectangle.columns
  unfold IsMaximalStack
  exact Stretch.isMaximal_moved_iff hruns rectangle.rows

theorem FillsMoved.occursFirst {row : Int} {columns : Int × Int}
    (hfirst : grid.OccursFirst columns row) :
    other.OccursFirst (columns.1 + right, columns.2) (row + down) := by
  refine ⟨(hmoved.isRun_iff row columns).mpr hfirst.1, fun earlier hearlier hrun ↦ ?_⟩
  rw [← Int.sub_add_cancel earlier down, hmoved.isRun_iff] at hrun
  exact hfirst.2 (earlier - down) (by omega) hrun

theorem FillsMoved.precedes {first second : Rectangle} (hprecedes : grid.Precedes first second) :
    other.Precedes (first.moved right down) (second.moved right down) := by
  have hcolumns : (first.moved right down).columns = (second.moved right down).columns ↔
      first.columns = second.columns := by
    simp only [Rectangle.columns, Rectangle.moved, Prod.mk.injEq, Int.add_left_inj]
  refine ⟨fun hsame ↦ ?_, fun hne ↦ ?_⟩
  · exact Int.add_lt_add_right (hprecedes.1 (hcolumns.mp hsame)) down
  · obtain ⟨row, another, hrow, hanother, hbefore⟩ := hprecedes.2 (mt hcolumns.mpr hne)
    refine ⟨row + down, another + down, hmoved.occursFirst hrow, hmoved.occursFirst hanother, ?_⟩
    simp only [Rectangle.columns, Rectangle.moved] at hbefore ⊢
    omega

/-- Where the filled cells of a grid are moved, its canonical cover is moved with them. -/
theorem FillsMoved.isCanonicalCover {rectangles : List Rectangle}
    (hcover : grid.IsCanonicalCover rectangles) :
    other.IsCanonicalCover (rectangles.map (Rectangle.moved right down)) := by
  refine isCanonicalCover_of_pairwise_precedes (fun rectangle ↦ ?_) ?_
  · rw [← rectangle.moved_neg right down, hmoved.isMaximalStack_iff, ← hcover.mem_iff]
    exact List.mem_map_of_injective (Rectangle.moved_injective right down)
  · refine List.pairwise_map.mpr ((hcover.top_lt_top.and hcover.occursBefore).imp ?_)
    exact hmoved.precedes

end Grid

/-! ### Contours moved -/

/-- Where a rectangle is moved and the baseline goes down with it, its contour is moved to the right
only. -/
theorem Rectangle.contour_moved (pixelSize baselineRow right down : Int) (rectangle : Rectangle) :
    (rectangle.moved right down).contour ⟨pixelSize, baselineRow + down⟩ =
      (rectangle.contour ⟨pixelSize, baselineRow⟩).movedRight (right * pixelSize) := by
  have hleft : (rectangle.left + right) * pixelSize =
      rectangle.left * pixelSize + right * pixelSize := Int.add_mul _ _ _
  have hright : (rectangle.left + right + rectangle.width) * pixelSize =
      (rectangle.left + rectangle.width) * pixelSize + right * pixelSize := by
    rw [← Int.add_mul, Int.add_right_comm]
  have htop : baselineRow + down - (rectangle.top + down) = baselineRow - rectangle.top := by omega
  have hbottom : baselineRow + down - (rectangle.top + down + rectangle.height) =
      baselineRow - (rectangle.top + rectangle.height) := by
    omega
  simp only [contour, moved, Contour.movedRight, Scale.x, Scale.y, List.map_cons, List.map_nil,
    hleft, hright, htop, hbottom]

/-- Empty columns and rows around a rectangular grid move the rectangles of its cover to the right
by the left margin and down by the upper one, and change neither their sizes nor their order. On a
baseline that goes down with them, their contours are moved to the right only. -/
theorem Grid.compact_pad {grid : Grid} (hgrid : grid.isRectangular = true) (margins : Margins) :
    ∃ rectangles, grid.compact = .ok rectangles ∧
      (grid.pad margins).compact =
        .ok (rectangles.map (Rectangle.moved margins.left margins.top)) ∧
      ∀ pixelSize baselineRow : Int,
        Rectangle.contours ⟨pixelSize, baselineRow + margins.top⟩
            (rectangles.map (Rectangle.moved margins.left margins.top)) =
          (Rectangle.contours ⟨pixelSize, baselineRow⟩ rectangles).map
            (Contour.movedRight (margins.left * pixelSize)) := by
  have hmoved := (fillsMoved_pad margins grid).isCanonicalCover (isCanonicalCover_stacked grid)
  have hsame := (isCanonicalCover_stacked (grid.pad margins)).unique hmoved
  refine ⟨_, compact_eq_ok hgrid, ?_, fun pixelSize baselineRow ↦ ?_⟩
  · rw [compact_eq_ok (isRectangular_pad hgrid margins), hsame]
  · rw [Rectangle.contours, Rectangle.contours, List.map_map, List.map_map]
    exact List.map_congr_left fun rectangle _ ↦ rectangle.contour_moved _ _ _ _

/-- Two columns of which the second reaches the last row and the right edge, with margins on all
sides but the lower one. -/
theorem Grid.compact_pad_corner :
    let grid : Grid := [[true, false], [true, true]]
    let margins : Margins := ⟨2, 1, 3, 0⟩
    grid.isRectangular = true ∧
      grid.pad margins =
        [[false, false, false, false, false, false, false],
          [false, false, true, false, false, false, false],
          [false, false, true, true, false, false, false]] ∧
      ∃ rectangles, grid.compact = .ok rectangles ∧
        (grid.pad margins).compact = .ok (rectangles.map (Rectangle.moved 2 1)) ∧
        ∀ pixelSize baselineRow : Int,
          Rectangle.contours ⟨pixelSize, baselineRow + 1⟩ (rectangles.map (Rectangle.moved 2 1)) =
            (Rectangle.contours ⟨pixelSize, baselineRow⟩ rectangles).map
              (Contour.movedRight (2 * pixelSize)) :=
  ⟨rfl, rfl, compact_pad rfl ⟨2, 1, 3, 0⟩⟩

end PixelFont
