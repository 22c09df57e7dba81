import PixelFont.Proofs.Raster.ExactCover
import PixelFont.Raster.Widening

/-!
What widening does to the cells of a grid. A cell of a widened row is filled if it was or the cell
before it was, so that a row widened is the row laid over itself, moved by one cell. No cell is lost
(`fills_widen`), and the extent and the shape of a grid stay as they are. Widening again and again
moves every filled cell one column further each time, as far as its row goes. Main statement:
`iterate_widen`.
-/

set_option autoImplicit false

namespace PixelFont.Grid

/-- A grid has a cell in a row and a column, filled or not. -/
def HasCell (grid : Grid) (row column : ℕ) : Prop :=
  ∃ cells, grid[row]? = some cells ∧ column < cells.length

theorem hasCell_of_isFilled {grid : Grid} {row column : ℕ}
    (hfilled : grid.isFilled row column = true) : grid.HasCell row column := by
  obtain ⟨cells, hcells, hcell⟩ := isFilled_eq_true_iff.mp hfilled
  exact ⟨cells, hcells, (List.getElem?_eq_some_iff.mp hcell).1⟩

theorem HasCell.of_le {grid : Grid} {row column before : ℕ} (hcell : grid.HasCell row column)
    (hbefore : before ≤ column) : grid.HasCell row before := by
  obtain ⟨cells, hcells, hcolumn⟩ := hcell
  exact ⟨cells, hcells, hbefore.trans_lt hcolumn⟩

/-! ### Once -/

/-- A row widened is the row laid over itself moved to the right, its last cell being dropped. -/
theorem widenRowAfter_eq_zipWith (before : Bool) (row : List Bool) :
    widenRowAfter before row = List.zipWith or row (before :: row) := by
  induction row generalizing before with
  | nil => rfl
  | cons cell cells ih => rw [widenRowAfter, ih, List.zipWith_cons_cons]

/-- A cell of a widened row is filled exactly if the row has it and it was filled itself or the one
before it was. -/
theorem getElem?_widenRow_iff {row : List Bool} {column : ℕ} :
    (widenRow row)[column]? = some true ↔
      column < row.length ∧ (row[column]? = some true ∨
        ∃ before, column = before + 1 ∧ row[before]? = some true) := by
  rw [widenRow, widenRowAfter_eq_zipWith, List.getElem?_zipWith_eq_some]
  constructor
  · rintro ⟨cell, before, hcell, hbefore, hor⟩
    refine ⟨(List.getElem?_eq_some_iff.mp hcell).1, ?_⟩
    rcases (Bool.or_eq_true _ _).mp hor with rfl | rfl
    · exact Or.inl hcell
    · cases column with
      | zero => exact absurd (Option.some.inj hbefore) Bool.false_ne_true
      | succ column => exact Or.inr ⟨column, rfl, hbefore⟩
  · rintro ⟨hcolumn, hfilled⟩
    have hbefore : column < (false :: row).length := Nat.lt_succ_of_lt hcolumn
    refine ⟨row[column], (false :: row)[column], List.getElem?_eq_getElem hcolumn,
      List.getElem?_eq_getElem hbefore, ?_⟩
    rw [Bool.or_eq_true]
    rcases hfilled with hcell | ⟨column, rfl, hcell⟩
    · exact Or.inl (List.getElem?_eq_some_iff.mp hcell).2
    · exact Or.inr (List.getElem?_eq_some_iff.mp hcell).2

theorem hasCell_widen_iff {grid : Grid} {row column : ℕ} :
    grid.widen.HasCell row column ↔ grid.HasCell row column := by
  simp [HasCell, widen]

/-- A cell of a widened grid is filled exactly if the grid has it and it was filled itself or the
one before it was. -/
theorem isFilled_widen_iff {grid : Grid} {row column : ℕ} :
    grid.widen.isFilled row column = true ↔
      grid.HasCell row column ∧ (grid.isFilled row column = true ∨
        ∃ before, column = before + 1 ∧ grid.isFilled row before = true) := by
  simp only [isFilled_eq_true_iff, HasCell, widen, List.getElem?_map, Option.map_eq_some_iff]
  cases hcells : grid[row]? with
  | none => simp
  | some cells => simp [getElem?_widenRow_iff]

/-- A filled cell of a grid stays filled. -/
theorem isFilled_widen {grid : Grid} {row column : ℕ} (hfilled : grid.isFilled row column = true) :
    grid.widen.isFilled row column = true :=
  isFilled_widen_iff.mpr ⟨hasCell_of_isFilled hfilled, Or.inl hfilled⟩

theorem fills_widen {grid : Grid} {row column : Int} (hfills : grid.fills row column = true) :
    grid.widen.fills row column = true := by
  simp only [fills, Bool.and_eq_true] at hfills ⊢
  exact ⟨hfills.1, isFilled_widen hfills.2⟩

theorem height_widen (grid : Grid) : grid.widen.height = grid.height :=
  List.length_map _

theorem width_widen (grid : Grid) : grid.widen.width = grid.width := by
  cases grid with
  | nil => rfl
  | cons first rest => exact length_widenRow first

/-- Widening keeps a grid rectangular. -/
theorem isRectangular_widen {grid : Grid} (hgrid : grid.isRectangular = true) :
    grid.widen.isRectangular = true := by
  rw [isRectangular_iff] at hgrid ⊢
  intro row hrow
  obtain ⟨original, horiginal, rfl⟩ := List.mem_map.mp hrow
  rw [length_widenRow, width_widen, hgrid original horiginal]

theorem map_length_widen (grid : Grid) : grid.widen.map List.length = grid.map List.length := by
  rw [widen, List.map_map]
  exact List.map_congr_left fun row _ ↦ length_widenRow row

/-! ### Several times -/

theorem map_length_iterate_widen (grid : Grid) (times : ℕ) :
    (widen^[times] grid).map List.length = grid.map List.length := by
  induction times with
  | zero => rfl
  | succ times ih => rw [Function.iterate_succ_apply', map_length_widen, ih]

theorem hasCell_iterate_widen_iff {grid : Grid} {times row column : ℕ} :
    (widen^[times] grid).HasCell row column ↔ grid.HasCell row column := by
  induction times with
  | zero => rfl
  | succ times ih => rw [Function.iterate_succ_apply', hasCell_widen_iff, ih]

/-- A cell of a grid widened several times is filled exactly if the grid has it and a filled cell
stood at most as many columns to its left. -/
theorem isFilled_iterate_widen_iff {grid : Grid} {times row column : ℕ} :
    (widen^[times] grid).isFilled row column = true ↔
      grid.HasCell row column ∧
        ∃ steps ≤ times, steps ≤ column ∧ grid.isFilled row (column - steps) = true := by
  induction times generalizing column with
  | zero =>
    simp only [Function.iterate_zero, id_eq, Nat.le_zero, exists_eq_left, Nat.zero_le, true_and,
      Nat.sub_zero]
    exact (and_iff_right_of_imp hasCell_of_isFilled).symm
  | succ times ih =>
    rw [Function.iterate_succ_apply', isFilled_widen_iff, hasCell_iterate_widen_iff, ih]
    refine and_congr_right fun hcell ↦ ⟨?_, ?_⟩
    · rintro (⟨-, steps, hsteps, hcolumn, hfilled⟩ | ⟨before, rfl, hbefore⟩)
      · exact ⟨steps, Nat.le_succ_of_le hsteps, hcolumn, hfilled⟩
      · obtain ⟨-, steps, hsteps, hcolumn, hfilled⟩ := ih.mp hbefore
        refine ⟨steps + 1, Nat.succ_le_succ hsteps, Nat.succ_le_succ hcolumn, ?_⟩
        rwa [Nat.add_sub_add_right]
    · rintro ⟨steps, hsteps, hcolumn, hfilled⟩
      cases steps with
      | zero => exact Or.inl ⟨hcell, 0, Nat.zero_le times, hcolumn, hfilled⟩
      | succ steps =>
        obtain ⟨before, rfl⟩ := Nat.exists_eq_add_one_of_ne_zero (Nat.ne_zero_of_lt hcolumn)
        rw [Nat.add_sub_add_right] at hfilled
        exact Or.inr ⟨before, rfl, ih.mpr ⟨hcell.of_le (Nat.le_succ before), steps,
          Nat.le_of_succ_le_succ hsteps, Nat.le_of_succ_le_succ hcolumn, hfilled⟩⟩

/-- A grid, ragged or not, that is widened any number of times keeps the lengths of its rows. Of the
cells it has, those are filled that stand at most as many columns to the right of a cell that was
filled. Widened once, it fills no cell but those that were filled and their right neighbours, none
of them behind the last column. -/
theorem iterate_widen (grid : Grid) (times : ℕ) :
    (widen^[times] grid).map List.length = grid.map List.length ∧
      (∀ row column, (widen^[times] grid).isFilled row column = true ↔
        grid.HasCell row column ∧
          ∃ steps ≤ times, steps ≤ column ∧ grid.isFilled row (column - steps) = true) ∧
      ∀ row column, grid.widen.isFilled row column = true ↔
        grid.HasCell row column ∧ (grid.isFilled row column = true ∨
          ∃ before, column = before + 1 ∧ grid.isFilled row before = true) :=
  ⟨map_length_iterate_widen grid times, fun _ _ ↦ isFilled_iterate_widen_iff,
    fun _ _ ↦ isFilled_widen_iff⟩

example : widen^[2] [[true, false, false, false], [], [false, true]] =
    [[true, true, true, false], [], [false, true]] := by decide

end PixelFont.Grid
