import PixelFont.Proofs.Raster.Stacking
import PixelFont.Raster.Compaction

/-!
The cover of a grid is exact. `IsExactCover` says that rectangles lie inside a grid and that every
filled cell lies in one of them and no other cell in any. A rectangular grid has the cover that
stacking its runs gives (`isExactCover_stacked`), and drawing an exact cover gives the grid back
(`draw_eq_ok_of_isExactCover`). A grid of rows of several lengths is refused with the first row
that differs from the first one (`findRagged?_eq_some`). Main statement: `compact_isExactCover`.
-/

set_option autoImplicit false

namespace PixelFont

namespace Rectangle

theorem fitsIn_eq_true_iff {rectangle : Rectangle} {width height : Int} :
    rectangle.fitsIn width height = true ↔
      0 ≤ rectangle.left ∧ 0 ≤ rectangle.top ∧ rectangle.left + rectangle.width ≤ width ∧
        rectangle.top + rectangle.height ≤ height := by
  simp only [fitsIn, Bool.and_eq_true, decide_eq_true_eq, and_assoc]

/-- Rectangles inside a grid are drawn. -/
theorem draw_eq_ok {rectangles : List Rectangle} {width height : Int}
    (hinside : ∀ rectangle ∈ rectangles, rectangle.fitsIn width height = true) :
    draw rectangles width height = .ok (Grid.ofFunction width.toNat height.toNat fun row column ↦
      rectangles.any fun rectangle ↦ rectangle.contains row column) := by
  have hnone : rectangles.find? (fun rectangle ↦ !rectangle.fitsIn width height) = none := by
    rw [List.find?_eq_none]
    intro rectangle hmem
    rw [hinside rectangle hmem]
    exact Bool.false_ne_true
  rw [draw, hnone]

end Rectangle

namespace Grid

/-- A row, by its number and its cells, is the first of another length than the first row. -/
structure IsFirstRagged (grid : Grid) (row : ℕ) (cells : List Bool) : Prop where
  getElem : grid[row]? = some cells
  length_ne : cells.length ≠ grid.width
  earlier : ∀ i < row, ∀ other, grid[i]? = some other → other.length = grid.width

/-- Rectangles of at least one cell inside a grid of which exactly one holds each filled cell and
none any other. -/
structure IsExactCover (grid : Grid) (rectangles : List Rectangle) : Prop where
  extent_pos : ∀ rectangle ∈ rectangles, 0 < rectangle.width ∧ 0 < rectangle.height
  inside : ∀ rectangle ∈ rectangles, rectangle.fitsIn grid.width grid.height = true
  countP_contains : ∀ row column : Int,
    rectangles.countP (·.contains row column) = if grid.fills row column then 1 else 0

theorem isRectangular_iff {grid : Grid} :
    grid.isRectangular = true ↔ ∀ cells ∈ grid, cells.length = grid.width := by
  simp only [isRectangular, List.all_eq_true, beq_iff_eq]

/-- A grid is rectangular if its rows have one length. -/
theorem isRectangular_of_forall_length {grid : Grid} (length : ℕ)
    (hlength : ∀ cells ∈ grid, cells.length = length) : grid.isRectangular = true := by
  refine isRectangular_iff.mpr fun cells hcells ↦ ?_
  rw [hlength cells hcells]
  cases hgrid : grid with
  | nil => exact absurd (hgrid ▸ hcells) List.not_mem_nil
  | cons first rest => exact (hlength first (hgrid ▸ List.mem_cons_self)).symm

/-! ### Cells of a rectangular grid -/

theorem isFilled_eq_true_iff {grid : Grid} {row column : ℕ} :
    grid.isFilled row column = true ↔
      ∃ cells, grid[row]? = some cells ∧ cells[column]? = some true := by
  unfold isFilled
  split
  · simp [*]
  · rename_i cells hcells
    rw [hcells]
    cases hcell : cells[column]? <;> simp [hcell]

theorem bounds_of_fills {grid : Grid} (hgrid : grid.isRectangular = true) {row column : Int}
    (hfills : grid.fills row column = true) :
    (0 ≤ row ∧ row < grid.height) ∧ 0 ≤ column ∧ column < grid.width := by
  simp only [fills, Bool.and_eq_true, decide_eq_true_eq] at hfills
  obtain ⟨⟨hrow, hcolumn⟩, hfilled⟩ := hfills
  obtain ⟨cells, hcells, hcell⟩ := isFilled_eq_true_iff.mp hfilled
  have hbelow : row.toNat < grid.length := (List.getElem?_eq_some_iff.mp hcells).1
  have hwithin : column.toNat < cells.length := (List.getElem?_eq_some_iff.mp hcell).1
  have hlength := isRectangular_iff.mp hgrid cells (List.mem_of_getElem? hcells)
  rw [height]
  omega

/-- A rectangular grid is drawn from its own filled cells. -/
theorem ofFunction_isFilled {grid : Grid} (hgrid : grid.isRectangular = true) :
    ofFunction grid.width grid.height grid.isFilled = grid := by
  refine List.ext_getElem (by simp [ofFunction, height]) fun row hrow hbelow ↦ ?_
  have hlength := isRectangular_iff.mp hgrid grid[row] (List.getElem_mem hbelow)
  have hrowEq : (ofFunction grid.width grid.height grid.isFilled)[row] =
      (List.range grid.width).map (grid.isFilled row) := by
    simp [ofFunction]
  rw [hrowEq]
  refine List.ext_getElem (by simp [hlength]) fun column hcolumn hwithin ↦ ?_
  simp [isFilled, hbelow, hwithin]

theorem isRectangular_ofFunction (width height : ℕ) (cell : ℕ → ℕ → Bool) :
    (ofFunction width height cell).isRectangular = true :=
  isRectangular_of_forall_length width fun _ ↦ length_of_mem_ofFunction

theorem fills_ofFunction_iff {width height : ℕ} {cell : ℕ → ℕ → Bool} {row column : Int} :
    (ofFunction width height cell).fills row column = true ↔
      ((0 ≤ row ∧ row < height) ∧ 0 ≤ column ∧ column < width) ∧
        cell row.toNat column.toNat = true := by
  simp only [fills, isFilled_ofFunction, Bool.and_eq_true, decide_eq_true_eq, ← and_assoc]
  refine and_congr_left fun _ ↦ ?_
  omega

/-! ### Exact covers -/

/-- The rectangles that the runs of a rectangular grid stack into cover it exactly. -/
theorem isExactCover_stacked {grid : Grid} (hgrid : grid.isRectangular = true) :
    IsExactCover grid (Span.stacked (Span.ofGrid grid)) := by
  have hcount (row column : Int) :
      (Span.stacked (Span.ofGrid grid)).countP (·.contains row column) =
        if grid.fills row column then 1 else 0 :=
    (Span.countP_stacked (fun _ hspan ↦ (Span.bounds_of_mem_ofRowsFrom hspan).2.2) row column).trans
      (Span.countP_ofGrid grid row column)
  refine ⟨fun r _ ↦ ⟨r.width_pos, r.height_pos⟩, fun rectangle hmem ↦ ?_, hcount⟩
  -- Every cell of a rectangle is filled, so its first and last cells lie inside the grid.
  have hcell (row column : Int) (hheld : rectangle.contains row column = true) :
      grid.fills row column = true := by
    have hpos : 0 < (Span.stacked (Span.ofGrid grid)).countP (·.contains row column) :=
      List.countP_pos_iff.mpr ⟨rectangle, hmem, hheld⟩
    rw [hcount] at hpos
    by_contra hfills
    rw [if_neg hfills] at hpos
    exact absurd hpos (Nat.lt_irrefl 0)
  have hwidth := rectangle.width_pos
  have hheight := rectangle.height_pos
  have hfirst := bounds_of_fills hgrid
    (hcell rectangle.top rectangle.left (Rectangle.contains_eq_true_iff.mpr (by omega)))
  have hlast := bounds_of_fills hgrid
    (hcell (rectangle.top + rectangle.height - 1) (rectangle.left + rectangle.width - 1)
      (Rectangle.contains_eq_true_iff.mpr (by omega)))
  rw [Rectangle.fitsIn_eq_true_iff]
  omega

/-- Of the rectangles of an exact cover, some one contains each filled cell and none any other. -/
theorem IsExactCover.exists_contains_iff {grid : Grid} {rectangles : List Rectangle}
    (hcover : grid.IsExactCover rectangles) {row column : Int} :
    (∃ rectangle ∈ rectangles, rectangle.contains row column = true) ↔
      grid.fills row column = true := by
  rw [← List.countP_pos_iff, hcover.countP_contains]
  split <;> simp [*]

/-- No cell lies in two rectangles of an exact cover. -/
theorem IsExactCover.pairwise_disjoint {grid : Grid} {rectangles : List Rectangle}
    (hcover : grid.IsExactCover rectangles) :
    rectangles.Pairwise fun first second ↦ ∀ row column : Int,
      ¬ (first.contains row column = true ∧ second.contains row column = true) := by
  have hfew (row column : Int) : (rectangles.filter (·.contains row column)).length < 2 := by
    rw [← List.countP_eq_length_filter, hcover.countP_contains]
    split <;> decide
  simp only [Grouping.length_lt_two_iff, List.pairwise_filter] at hfew
  simp only [List.pairwise_iff_getElem] at hfew ⊢
  intro i j hi hj hij row column hboth
  exact hfew row column i j hi hj hij hboth.1 hboth.2

theorem IsExactCover.any_contains {grid : Grid} {rectangles : List Rectangle}
    (hcover : IsExactCover grid rectangles) (row column : ℕ) :
    (rectangles.any fun rectangle ↦ rectangle.contains row column) = grid.isFilled row column := by
  have hcount := hcover.countP_contains row column
  rw [fills_natCast] at hcount
  cases hfilled : grid.isFilled row column with
  | true =>
    rw [hfilled, if_pos rfl] at hcount
    obtain ⟨rectangle, hmem, hheld⟩ := List.countP_pos_iff.mp (hcount ▸ Nat.one_pos)
    exact List.any_eq_true.mpr ⟨rectangle, hmem, hheld⟩
  | false =>
    rw [hfilled, if_neg Bool.false_ne_true] at hcount
    rw [List.any_eq_false]
    exact List.countP_eq_zero.mp hcount

/-- Drawing an exact cover of a rectangular grid gives the grid back. -/
theorem draw_eq_ok_of_isExactCover {grid : Grid} (hgrid : grid.isRectangular = true)
    {rectangles : List Rectangle} (hcover : IsExactCover grid rectangles) :
    Rectangle.draw rectangles grid.width grid.height = .ok grid := by
  rw [Rectangle.draw_eq_ok hcover.inside]
  simp only [Int.toNat_natCast, hcover.any_contains, ofFunction_isFilled hgrid]

/-! ### Rows of several lengths -/

theorem findRagged?_eq_none_iff {expected number : ℕ} {grid : Grid} :
    findRagged? expected number grid = none ↔ ∀ cells ∈ grid, cells.length = expected := by
  induction grid generalizing number with
  | nil => simp [findRagged?]
  | cons row rows ih =>
    rw [findRagged?, List.forall_mem_cons]
    split
    · rename_i hlength
      simp [hlength, ih]
    · rename_i hlength
      simp [hlength]

/-- A row found is the first, from the given number on, that has not the expected length. -/
theorem findRagged?_eq_some {expected number : ℕ} {grid : Grid} {error : RasterError}
    (hfound : findRagged? expected number grid = some error) :
    ∃ (row : ℕ) (cells : List Bool), grid[row]? = some cells ∧ cells.length ≠ expected ∧
      (∀ i < row, ∀ other, grid[i]? = some other → other.length = expected) ∧
      error = .raggedRow (number + row) cells.length expected := by
  induction grid generalizing number with
  | nil => simp [findRagged?] at hfound
  | cons first rows ih =>
    rw [findRagged?] at hfound
    split at hfound
    · rename_i hlength
      obtain ⟨row, cells, hcells, hne, hearlier, rfl⟩ := ih hfound
      refine ⟨row + 1, cells, hcells, hne, fun i hi other hother ↦ ?_, ?_⟩
      · cases i with
        | zero => simpa using Option.some.inj hother ▸ hlength
        | succ i => exact hearlier i (Nat.lt_of_succ_lt_succ hi) other hother
      · rw [Nat.add_right_comm, Nat.add_assoc]
    · rename_i hlength
      refine ⟨0, first, rfl, hlength, fun i hi ↦ absurd hi (Nat.not_lt_zero i), ?_⟩
      exact (Option.some.inj hfound).symm

theorem compact_eq_ok {grid : Grid} (hgrid : grid.isRectangular = true) :
    grid.compact = .ok (Span.stacked (Span.ofGrid grid)) := by
  rw [compact, findRagged?_eq_none_iff.mpr (isRectangular_iff.mp hgrid)]
  exact Span.stack_eq_ok fun span hspan ↦ (Span.bounds_of_mem_ofRowsFrom hspan).2.2

theorem compact_eq_error {grid : Grid} (hgrid : grid.isRectangular = false) :
    ∃ row cells, grid.IsFirstRagged row cells ∧
      grid.compact = .error (.raggedRow row cells.length grid.width) := by
  have hragged : findRagged? grid.width 0 grid ≠ none := by
    rw [Ne, findRagged?_eq_none_iff, ← isRectangular_iff, hgrid]
    exact Bool.false_ne_true
  obtain ⟨error, herror⟩ := Option.ne_none_iff_exists'.mp hragged
  obtain ⟨row, cells, hcells, hne, hearlier, rfl⟩ := findRagged?_eq_some herror
  refine ⟨row, cells, ⟨hcells, hne, hearlier⟩, ?_⟩
  rw [compact, herror, Nat.zero_add]

/-- A rectangular grid, of any number of rows and columns, gets an exact cover, from which it is
drawn again; any other grid is refused with the first row whose length is not that of the first
row, and both lengths. -/
theorem compact_isExactCover (grid : Grid) :
    (grid.isRectangular = true → ∃ rectangles, grid.compact = .ok rectangles ∧
        grid.IsExactCover rectangles ∧
        Rectangle.draw rectangles grid.width grid.height = .ok grid) ∧
      (grid.isRectangular = false → ∃ row cells, grid.IsFirstRagged row cells ∧
        grid.compact = .error (.raggedRow row cells.length grid.width)) := by
  refine ⟨fun hgrid ↦ ?_, compact_eq_error⟩
  have hcover := isExactCover_stacked hgrid
  exact ⟨_, compact_eq_ok hgrid, hcover, draw_eq_ok_of_isExactCover hgrid hcover⟩

/-- Both kinds of grid: one whose runs touch the last column and the last row, and one whose third
row is short. -/
theorem compact_isExactCover_corner :
    isRectangular [[true, false], [true, true]] = true ∧
      isRectangular [[true], [false], [], [true]] = false ∧
      (∃ rectangles, compact [[true, false], [true, true]] = .ok rectangles ∧
        IsExactCover [[true, false], [true, true]] rectangles ∧
        Rectangle.draw rectangles 2 2 = .ok [[true, false], [true, true]]) ∧
      ∃ row cells, IsFirstRagged [[true], [false], [], [true]] row cells ∧
        compact [[true], [false], [], [true]] = .error (.raggedRow row cells.length 1) :=
  ⟨rfl, rfl, (compact_isExactCover _).1 rfl, (compact_isExactCover _).2 rfl⟩

end Grid

end PixelFont
