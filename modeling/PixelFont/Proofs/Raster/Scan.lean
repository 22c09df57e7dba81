import Mathlib.Data.List.Count
import PixelFont.Raster.Span

/-!
The row scan as a cover: the maximal runs of filled cells hold every filled cell once and no other
cell. A row is followed from its end, where a filled cell adds itself to the run after it or begins
a run of its own; `Stretch.indicator_extended` and `Stretch.indicator_single` say that in either
case exactly that cell is added. Main statement: `countP_ofGrid`, for the rows of a grid together.
-/

set_option autoImplicit false

namespace PixelFont

namespace Grid

/-- Whether the cell of a row and a column, which may lie on either side of the origin, exists and
is filled. -/
def fills (grid : Grid) (row column : Int) : Bool :=
  0 ≤ row && 0 ≤ column && grid.isFilled row.toNat column.toNat

theorem fills_natCast (grid : Grid) (row column : ℕ) :
    grid.fills row column = grid.isFilled row column := by
  simp [fills]

end Grid

/-! ### Stretches -/

namespace Stretch

/-- Whether a stretch, given by its first place and its length, holds a place. -/
def holds (stretch : Int × Int) (place : Int) : Bool :=
  stretch.1 ≤ place && place < stretch.1 + stretch.2

theorem holds_eq_true_iff {stretch : Int × Int} {place : Int} :
    holds stretch place = true ↔ stretch.1 ≤ place ∧ place < stretch.1 + stretch.2 := by
  simp only [holds, Bool.and_eq_true, decide_eq_true_eq]

/-- A stretch of one place holds that place. -/
theorem indicator_single (first place : Int) :
    (if holds (first, 1) place = true then 1 else 0) = if place = first then 1 else 0 := by
  have hplace : holds (first, 1) place = true ↔ place = first := by
    rw [holds_eq_true_iff]
    dsimp only
    omega
  simp only [hplace]

/-- A stretch that begins one place earlier holds that place besides those that it held. -/
theorem indicator_extended {first length : Int} (hlength : 0 ≤ length) {place : Int} :
    (if holds (first, length + 1) place = true then 1 else 0) =
      (if holds (first + 1, length) place = true then 1 else 0) +
        if place = first then 1 else 0 := by
  simp only [holds_eq_true_iff]
  by_cases hplace : place = first
  · rw [if_pos (by omega), if_neg (by omega), if_pos hplace]
  · rw [if_neg hplace, Nat.add_zero]
    exact if_congr (by omega) rfl rfl

end Stretch

namespace Span

/-- Whether a span holds the cell of a row and a column. -/
def contains (span : Span) (row column : Int) : Bool :=
  span.row == row && (span.left ≤ column && column < span.left + span.width)

theorem contains_eq_true_iff {span : Span} {row column : Int} :
    span.contains row column = true ↔
      span.row = row ∧ span.left ≤ column ∧ column < span.left + span.width := by
  simp only [contains, Bool.and_eq_true, beq_iff_eq, decide_eq_true_eq]

theorem contains_eq (span : Span) (row column : Int) :
    span.contains row column = (span.row == row && Stretch.holds span.extent column) :=
  rfl

theorem contains_eq_holds {span : Span} {row : Int} (hrow : span.row = row) (column : Int) :
    span.contains row column = Stretch.holds span.extent column := by
  rw [contains_eq, hrow, beq_self_eq_true, Bool.true_and]

/-! ### A row -/

/-- The runs of a row stand on it, behind its first cell, and hold at least one cell. -/
theorem bounds_of_mem_ofCellsFrom {row column : Int} {cells : List Bool} {span : Span}
    (hspan : span ∈ ofCellsFrom row column cells) :
    span.row = row ∧ column ≤ span.left ∧ 0 < span.width := by
  induction cells generalizing column span with
  | nil => exact absurd hspan List.not_mem_nil
  | cons cell cells ih =>
    cases cell with
    | false =>
      obtain ⟨hrow, hleft, hwidth⟩ := ih hspan
      exact ⟨hrow, by omega, hwidth⟩
    | true =>
      rw [ofCellsFrom] at hspan
      split at hspan
      · rw [List.mem_singleton] at hspan
        subst hspan
        exact ⟨rfl, Int.le_refl _, Int.one_pos⟩
      · rename_i next others hrest
        have hothers : ∀ other ∈ next :: others,
            other.row = row ∧ column + 1 ≤ other.left ∧ 0 < other.width :=
          fun other hother ↦ ih (hrest ▸ hother)
        split at hspan
        · rcases List.mem_cons.mp hspan with rfl | hspan
          · have hnext := hothers next List.mem_cons_self
            exact ⟨rfl, Int.le_refl _, Int.add_pos hnext.2.2 Int.one_pos⟩
          · have hother := hothers span (List.mem_cons_of_mem _ hspan)
            exact ⟨hother.1, by omega, hother.2.2⟩
        · rcases List.mem_cons.mp hspan with rfl | hspan
          · exact ⟨rfl, Int.le_refl _, Int.one_pos⟩
          · have hother := hothers span hspan
            exact ⟨hother.1, by omega, hother.2.2⟩

/-- A filled cell in front of a row adds itself to the cells held, and no other cell. -/
theorem countP_ofCellsFrom_filled (row column : Int) (cells : List Bool) (c : Int) :
    (ofCellsFrom row column (true :: cells)).countP (·.contains row c) =
      (ofCellsFrom row (column + 1) cells).countP (·.contains row c) +
        if c = column then 1 else 0 := by
  have hsingle : (if contains ⟨column, row, 1⟩ row c = true then 1 else 0) =
      if c = column then 1 else 0 := by
    rw [contains_eq_holds rfl]
    exact Stretch.indicator_single column c
  rw [ofCellsFrom]
  split
  · rename_i hrest
    rw [hrest, List.countP_singleton, hsingle]
    exact (Nat.zero_add _).symm
  · rename_i next others hrest
    split
    · rename_i hleft
      -- The run after the cell is met at once: it holds the cell besides those it held.
      have hnext : next ∈ ofCellsFrom row (column + 1) cells := hrest ▸ List.mem_cons_self
      obtain ⟨hrow, -, hwidth⟩ := bounds_of_mem_ofCellsFrom hnext
      have hjoined : next.extent = (column + 1, next.width) := by rw [extent, hleft]
      rw [hrest, List.countP_cons, List.countP_cons, contains_eq_holds rfl, contains_eq_holds hrow,
        hjoined, Nat.add_assoc, ← Stretch.indicator_extended (Int.le_of_lt hwidth)]
      rfl
    · rw [hrest, List.countP_cons, hsingle]

/-- The runs of a row hold the cell a number of columns behind the first as often as that cell is
filled. -/
theorem countP_ofCellsFrom (row column : Int) (cells : List Bool) (place : ℕ) :
    (ofCellsFrom row column cells).countP (·.contains row (column + place)) =
      if cells[place]?.getD false then 1 else 0 := by
  induction cells generalizing column place with
  | nil => rfl
  | cons cell cells ih =>
    -- Cells in front of the runs are held by none of them.
    have hfront : (ofCellsFrom row (column + 1) cells).countP (·.contains row column) = 0 := by
      refine List.countP_eq_zero.mpr fun span hspan hheld ↦ ?_
      have hbounds := bounds_of_mem_ofCellsFrom hspan
      have hplace := contains_eq_true_iff.mp hheld
      omega
    have hshift (place : ℕ) : column + ((place + 1 : ℕ) : Int) = column + 1 + place := by omega
    cases cell with
    | false =>
      rw [ofCellsFrom]
      cases place with
      | zero => simpa using hfront
      | succ place => rw [hshift, ih]; rfl
    | true =>
      rw [countP_ofCellsFrom_filled]
      cases place with
      | zero => simpa using hfront
      | succ place =>
        have hne : column + 1 + (place : Int) ≠ column := by omega
        rw [hshift, ih, if_neg hne]
        rfl

/-! ### A grid -/

theorem bounds_of_mem_ofRowsFrom {row : Int} {grid : Grid} {span : Span}
    (hspan : span ∈ ofRowsFrom row grid) : row ≤ span.row ∧ 0 ≤ span.left ∧ 0 < span.width := by
  induction grid generalizing row with
  | nil => exact absurd hspan List.not_mem_nil
  | cons cells rows ih =>
    rcases List.mem_append.mp hspan with hspan | hspan
    · obtain ⟨hrow, hleft, hwidth⟩ := bounds_of_mem_ofCellsFrom hspan
      exact ⟨Int.le_of_eq hrow.symm, hleft, hwidth⟩
    · obtain ⟨hrow, hleft, hwidth⟩ := ih hspan
      exact ⟨by omega, hleft, hwidth⟩

/-- The runs of a row do not reach another row. -/
theorem countP_ofCells_of_ne {row other : Int} (cells : List Bool) (column : Int)
    (hne : row ≠ other) : (ofCells row cells).countP (·.contains other column) = 0 := by
  refine List.countP_eq_zero.mpr fun span hspan hheld ↦ hne ?_
  rw [← (bounds_of_mem_ofCellsFrom hspan).1, (contains_eq_true_iff.mp hheld).1]

theorem countP_ofRowsFrom (row : Int) (grid : Grid) (below place : ℕ) :
    (ofRowsFrom row grid).countP (·.contains (row + below) place) =
      if grid.isFilled below place then 1 else 0 := by
  induction grid generalizing row below with
  | nil => rfl
  | cons cells rows ih =>
    rw [ofRowsFrom, List.countP_append]
    cases below with
    | zero =>
      have hlater : (ofRowsFrom (row + 1) rows).countP (·.contains (row + (0 : ℕ)) place) = 0 := by
        refine List.countP_eq_zero.mpr fun span hspan hheld ↦ ?_
        have hbounds := bounds_of_mem_ofRowsFrom hspan
        have hplace := contains_eq_true_iff.mp hheld
        omega
      have hfirst := countP_ofCellsFrom row 0 cells place
      rw [hlater, Nat.add_zero]
      simpa [ofCells, Grid.isFilled] using hfirst
    | succ below =>
      have hrow : row + ((below + 1 : ℕ) : Int) = row + 1 + below := by omega
      have hne : row ≠ row + 1 + (below : Int) := by omega
      rw [hrow, countP_ofCells_of_ne cells _ hne, ih, Nat.zero_add]
      rfl

/-- The runs of a grid hold every filled cell once and no other cell. -/
theorem countP_ofGrid (grid : Grid) (row column : Int) :
    (ofGrid grid).countP (·.contains row column) = if grid.fills row column then 1 else 0 := by
  by_cases hplace : 0 ≤ row ∧ 0 ≤ column
  · obtain ⟨below, rfl⟩ := Int.eq_ofNat_of_zero_le hplace.1
    obtain ⟨place, rfl⟩ := Int.eq_ofNat_of_zero_le hplace.2
    have hcount := countP_ofRowsFrom 0 grid below place
    rw [Int.zero_add] at hcount
    rw [Grid.fills_natCast]
    exact hcount
  · have houtside : grid.fills row column = false := by
      rw [Bool.eq_false_iff]
      intro hfills
      simp only [Grid.fills, Bool.and_eq_true, decide_eq_true_eq] at hfills
      exact hplace hfills.1
    rw [houtside]
    refine List.countP_eq_zero.mpr fun span hspan hheld ↦ hplace ?_
    have hbounds := bounds_of_mem_ofRowsFrom hspan
    have hcell := contains_eq_true_iff.mp hheld
    omega

end Span

end PixelFont
