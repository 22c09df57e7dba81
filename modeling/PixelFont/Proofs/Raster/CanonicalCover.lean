import Mathlib.Data.Int.LeastGreatest
import PixelFont.Proofs.Raster.ExactCover
import PixelFont.Proofs.Raster.MaximalRuns

/-!
The cover of a grid as one list that the grid determines. A rectangle belongs to it exactly if its
columns are a maximal run of filled cells on each of its rows and on neither of the rows next to
them (`IsMaximalStack`). The list names the rectangles of one run of columns one after the other,
from top to bottom, and takes the runs in the order of the places where they first occur, row by
row. `IsCanonicalCover` says this, and no two lists satisfy it (`IsCanonicalCover.unique`). Main
statement: `compact_isCanonicalCover`.
-/

set_option autoImplicit false

namespace PixelFont

namespace Rectangle

variable {first second rectangle : Rectangle}

/-- The first column of a rectangle and the number of its columns. -/
def columns (rectangle : Rectangle) : Int × Int :=
  (rectangle.left, rectangle.width)

/-- The first row of a rectangle and the number of its rows. -/
def rows (rectangle : Rectangle) : Int × Int :=
  (rectangle.top, rectangle.height)

theorem ofPile?_eq_some_iff {extent pile : Int × Int} :
    ofPile? extent pile = some rectangle ↔ rectangle.columns = extent ∧ rectangle.rows = pile := by
  constructor
  · intro hmade
    by_cases hextent : 0 < extent.2 ∧ 0 < pile.2
    · rw [ofPile?_eq_some hextent.1 hextent.2, Option.some.injEq] at hmade
      subst hmade
      exact ⟨rfl, rfl⟩
    · rw [ofPile?, make, dif_neg hextent] at hmade
      cases hmade
  · rintro ⟨rfl, rfl⟩
    exact ofPile?_eq_some rectangle.width_pos rectangle.height_pos

end Rectangle

namespace Grid

/-! ### The description of the cover -/

/-- Whether a rectangle is a run of filled cells stacked as far as it goes: its columns are a
maximal run on each of its rows, but neither on the row above it nor on the row below it. -/
def IsMaximalStack (grid : Grid) (rectangle : Rectangle) : Prop :=
  Stretch.IsMaximal (fun row ↦ grid.IsRun row rectangle.columns) rectangle.rows

/-- Whether a row is the first on which the given columns are a maximal run. -/
def OccursFirst (grid : Grid) (columns : Int × Int) (row : Int) : Prop :=
  grid.IsRun row columns ∧ ∀ earlier < row, ¬ grid.IsRun earlier columns

/-- Whether the place where some columns are first a maximal run comes before that of others: on an
earlier row, or on the same row further to the left. -/
def OccursBefore (grid : Grid) (first second : Int × Int) : Prop :=
  ∃ row other, grid.OccursFirst first row ∧ grid.OccursFirst second other ∧
    (row < other ∨ row = other ∧ first.1 < second.1)

/-- Rectangles list the maximal stacks of the runs of a grid, each once: those of the same columns
one after the other and from top to bottom, the columns in the order in which they first occur. -/
structure IsCanonicalCover (grid : Grid) (rectangles : List Rectangle) : Prop where
  mem_iff : ∀ rectangle, rectangle ∈ rectangles ↔ grid.IsMaximalStack rectangle
  nodup : rectangles.Nodup
  contiguous : ∀ before between after first last,
    rectangles = before ++ first :: (between ++ last :: after) → first.columns = last.columns →
      ∀ rectangle ∈ between, rectangle.columns = first.columns
  top_lt_top : rectangles.Pairwise fun first second ↦
    first.columns = second.columns → first.top < second.top
  occursBefore : rectangles.Pairwise fun first second ↦
    first.columns ≠ second.columns → grid.OccursBefore first.columns second.columns

/-- Whether one rectangle stands before another in the order of a cover. -/
def Precedes (grid : Grid) (first second : Rectangle) : Prop :=
  (first.columns = second.columns → first.top < second.top) ∧
    (first.columns ≠ second.columns → grid.OccursBefore first.columns second.columns)

/-! ### The order of columns -/

variable {grid : Grid} {columns first second : Int × Int}

theorem IsRun.row_nonneg {row : Int} (hrun : grid.IsRun row columns) : 0 ≤ row := by
  have hmem : (⟨columns.1, row, columns.2⟩ : Span) ∈ Span.ofGrid grid :=
    Span.mem_ofGrid_iff.mpr hrun
  exact (Span.bounds_of_mem_ofRowsFrom hmem).1

theorem OccursFirst.unique {row other : Int} (hrow : grid.OccursFirst columns row)
    (hother : grid.OccursFirst columns other) : row = other := by
  apply Int.le_antisymm
  · exact Int.not_lt.mp fun hearlier ↦ hrow.2 other hearlier hother.1
  · exact Int.not_lt.mp fun hearlier ↦ hother.2 row hearlier hrow.1

/-- A run first occurs on its row or on an earlier one. -/
theorem IsRun.exists_occursFirst {row : Int} (hrun : grid.IsRun row columns) :
    ∃ first ≤ row, grid.OccursFirst columns first := by
  obtain ⟨first, hfirst, hleast⟩ := Int.exists_least_of_bdd
    ⟨0, fun _ hoccurs ↦ IsRun.row_nonneg hoccurs⟩ ⟨row, hrun⟩
  refine ⟨first, hleast row hrun, hfirst, fun earlier hearlier hoccurs ↦ ?_⟩
  exact Int.not_lt.mpr (hleast earlier hoccurs) hearlier

theorem OccursBefore.asymm (hfirst : grid.OccursBefore first second) :
    ¬ grid.OccursBefore second first := by
  rintro ⟨row, other, hrow, hother, hback⟩
  obtain ⟨firstRow, secondRow, hfirstRow, hsecondRow, hforth⟩ := hfirst
  have hfirstSame := hfirstRow.unique hother
  have hsecondSame := hsecondRow.unique hrow
  omega

/-- The distinct extents of the runs of a grid come in the order in which they first occur. -/
theorem pairwise_occursBefore_extents (grid : Grid) :
    (Span.extents (Span.ofGrid grid)).Pairwise grid.OccursBefore := by
  have hruns := Span.pairwise_precedes_ofRowsFrom 0 grid
  refine (Grouping.pairwise_eraseDups_map Span.extent hruns).imp_of_mem ?_
  intro first second _ hsecond hbefore
  obtain ⟨span, hspan, rfl, hall⟩ := hbefore
  obtain ⟨another, hanother, rfl⟩ := List.mem_map.mp (List.mem_eraseDups.mp hsecond)
  obtain ⟨row, hrow, hfirst⟩ := (Span.mem_ofGrid_iff.mp hspan).exists_occursFirst
  obtain ⟨other, -, hother⟩ := (Span.mem_ofGrid_iff.mp hanother).exists_occursFirst
  -- The span stands before the one in which the later extent first occurs.
  have hlater : (⟨another.left, other, another.width⟩ : Span) ∈ Span.ofGrid grid :=
    Span.mem_ofGrid_iff.mpr hother.1
  have hwidth := (Span.mem_ofGrid_iff.mp hspan).length_pos
  have hprecedes := hall _ hlater rfl
  refine ⟨row, other, hfirst, hother, ?_⟩
  simp only [Span.Precedes, Span.extent] at hprecedes hwidth ⊢
  omega

/-! ### The rectangles of the cover -/

theorem pairwise_lt_rows (grid : Grid) (extent : Int × Int) :
    (((Span.ofGrid grid).filter fun span ↦ span.extent == extent).map Span.row).Pairwise
      (· < ·) := by
  rw [List.pairwise_map, List.pairwise_filter]
  refine (Span.pairwise_precedes_ofRowsFrom 0 grid).imp_of_mem ?_
  intro first second hmem _ hprecedes hfirst hsecond
  rw [beq_iff_eq] at hfirst hsecond
  have hsame : first.left = second.left := congrArg Prod.fst (hfirst.trans hsecond.symm)
  have hwidth := (Span.bounds_of_mem_ofRowsFrom hmem).2.2
  rcases hprecedes with hearlier | ⟨-, hbetween⟩
  · exact hearlier
  · omega

/-- The rows of the runs of an extent come in increasing order already. -/
theorem rowsOf_ofGrid (grid : Grid) (extent : Int × Int) :
    Span.rowsOf (Span.ofGrid grid) extent =
      ((Span.ofGrid grid).filter fun span ↦ span.extent == extent).map Span.row := by
  refine List.mergeSort_of_pairwise ((pairwise_lt_rows grid extent).imp fun hlt ↦ ?_)
  exact decide_eq_true (Int.le_of_lt hlt)

theorem mem_rowsOf_ofGrid_iff {row : Int} :
    row ∈ Span.rowsOf (Span.ofGrid grid) columns ↔ grid.IsRun row columns := by
  rw [Span.mem_rowsOf_iff]
  constructor
  · rintro ⟨span, hspan, rfl, rfl⟩
    exact Span.mem_ofGrid_iff.mp hspan
  · intro hrun
    exact ⟨⟨columns.1, row, columns.2⟩, Span.mem_ofGrid_iff.mpr hrun, rfl, rfl⟩

theorem mem_piles_ofGrid_iff {pile : Int × Int} :
    pile ∈ Span.piles (Span.rowsOf (Span.ofGrid grid) columns) ↔
      Stretch.IsMaximal (fun row ↦ grid.IsRun row columns) pile := by
  have hrows : (Span.rowsOf (Span.ofGrid grid) columns).Pairwise (· < ·) := by
    rw [rowsOf_ofGrid]
    exact pairwise_lt_rows grid columns
  simp only [Span.mem_piles_iff hrows, mem_rowsOf_ofGrid_iff]

theorem mem_stacked_ofGrid_iff {rectangle : Rectangle} :
    rectangle ∈ Span.stacked (Span.ofGrid grid) ↔ grid.IsMaximalStack rectangle := by
  simp only [Span.stacked, Span.stackedExtent, List.mem_flatMap, List.mem_filterMap,
    Rectangle.ofPile?_eq_some_iff, mem_piles_ofGrid_iff]
  constructor
  · rintro ⟨extent, -, pile, hpile, rfl, rfl⟩
    exact hpile
  · intro hstack
    have hrun := hstack.property_of_holds _ hstack.holds_first
    have hmem : (⟨rectangle.left, rectangle.top, rectangle.width⟩ : Span) ∈ Span.ofGrid grid :=
      Span.mem_ofGrid_iff.mpr hrun
    refine ⟨rectangle.columns, ?_, rectangle.rows, hstack, rfl, rfl⟩
    exact List.mem_eraseDups.mpr (List.mem_map_of_mem hmem)

/-- The rectangles of an extent come from top to bottom. -/
theorem pairwise_top_stackedExtent (grid : Grid) (extent : Int × Int) :
    (Span.stackedExtent (Span.ofGrid grid) extent).Pairwise fun first second ↦
      first.top < second.top := by
  have hrows := pairwise_lt_rows grid extent
  rw [← rowsOf_ofGrid] at hrows
  rw [Span.stackedExtent, List.pairwise_filterMap]
  refine (Span.areApart_piles hrows).imp_of_mem ?_
  intro pile other hpile _ hbetween first hfirst second hsecond
  obtain ⟨-, rfl⟩ := Rectangle.ofPile?_eq_some_iff.mp hfirst
  obtain ⟨-, rfl⟩ := Rectangle.ofPile?_eq_some_iff.mp hsecond
  have hheight : 0 < first.rows.2 := Span.height_pos_of_mem_piles hpile
  simp only [Rectangle.rows] at hbetween hheight
  omega

theorem columns_of_mem_stackedExtent {spans : List Span} {extent : Int × Int}
    {rectangle : Rectangle} (hmem : rectangle ∈ Span.stackedExtent spans extent) :
    rectangle.columns = extent := by
  obtain ⟨pile, -, hpile⟩ := List.mem_filterMap.mp hmem
  exact (Rectangle.ofPile?_eq_some_iff.mp hpile).1

theorem pairwise_precedes_stacked (grid : Grid) :
    (Span.stacked (Span.ofGrid grid)).Pairwise grid.Precedes := by
  refine List.pairwise_flatMap.mpr ⟨fun extent _ ↦ ?_, ?_⟩
  · refine (pairwise_top_stackedExtent grid extent).imp_of_mem ?_
    intro first second hfirst hsecond hlt
    have hsame : first.columns = second.columns := by
      rw [columns_of_mem_stackedExtent hfirst, columns_of_mem_stackedExtent hsecond]
    exact ⟨fun _ ↦ hlt, fun hne ↦ absurd hsame hne⟩
  · have hdistinct : (Span.extents (Span.ofGrid grid)).Nodup := Grouping.nodup_eraseDups _
    refine (hdistinct.and (pairwise_occursBefore_extents grid)).imp ?_
    intro extent other hextents first hfirst second hsecond
    rw [Precedes, columns_of_mem_stackedExtent hfirst, columns_of_mem_stackedExtent hsecond]
    exact ⟨fun hsame ↦ absurd hsame hextents.1, fun _ ↦ hextents.2⟩

/-! ### One list -/

theorem Precedes.asymm {first second : Rectangle} (hfirst : grid.Precedes first second) :
    ¬ grid.Precedes second first := by
  intro hsecond
  by_cases hsame : first.columns = second.columns
  · exact absurd (hfirst.1 hsame) (Int.not_lt.mpr (Int.le_of_lt (hsecond.1 hsame.symm)))
  · exact (hfirst.2 hsame).asymm (hsecond.2 (Ne.symm hsame))

/-- Between two rectangles of the same columns stand others of these columns only. -/
theorem contiguous_of_pairwise_precedes {before between after : List Rectangle}
    {first last : Rectangle}
    (hpairwise : (before ++ first :: (between ++ last :: after)).Pairwise grid.Precedes)
    (hsame : first.columns = last.columns) :
    ∀ rectangle ∈ between, rectangle.columns = first.columns := by
  intro rectangle hmem
  by_contra hne
  obtain ⟨-, hrest, -⟩ := List.pairwise_append.mp hpairwise
  obtain ⟨hfirst, hbetween⟩ := List.pairwise_cons.mp hrest
  have hbefore := (hfirst rectangle (List.mem_append_left _ hmem)).2 (Ne.symm hne)
  have hafter := ((List.pairwise_append.mp hbetween).2.2 rectangle hmem last
    List.mem_cons_self).2 (hsame ▸ hne)
  rw [hsame] at hbefore
  exact hbefore.asymm hafter

/-- Maximal stacks listed in their order are the canonical cover. -/
theorem isCanonicalCover_of_pairwise_precedes {rectangles : List Rectangle}
    (hmem : ∀ rectangle, rectangle ∈ rectangles ↔ grid.IsMaximalStack rectangle)
    (hpairwise : rectangles.Pairwise grid.Precedes) : grid.IsCanonicalCover rectangles := by
  refine ⟨hmem, ?_, ?_, hpairwise.imp And.left, hpairwise.imp And.right⟩
  · refine hpairwise.imp fun {first second} hprecedes hsame ↦ ?_
    subst hsame
    exact hprecedes.asymm hprecedes
  · intro before between after first last hlist hsame
    rw [hlist] at hpairwise
    exact contiguous_of_pairwise_precedes hpairwise hsame

theorem isCanonicalCover_stacked (grid : Grid) :
    grid.IsCanonicalCover (Span.stacked (Span.ofGrid grid)) :=
  isCanonicalCover_of_pairwise_precedes (fun _ ↦ mem_stacked_ofGrid_iff)
    (pairwise_precedes_stacked grid)

/-- A grid has one canonical cover only. -/
theorem IsCanonicalCover.unique {rectangles others : List Rectangle}
    (hrectangles : grid.IsCanonicalCover rectangles) (hothers : grid.IsCanonicalCover others) :
    others = rectangles := by
  have hperm : others.Perm rectangles := by
    rw [List.perm_ext_iff_of_nodup hothers.nodup hrectangles.nodup]
    intro rectangle
    rw [hothers.mem_iff, hrectangles.mem_iff]
  have hprecedes {list : List Rectangle} (hlist : grid.IsCanonicalCover list) :
      list.Pairwise grid.Precedes := hlist.top_lt_top.and hlist.occursBefore
  refine hperm.eq_of_pairwise ?_ (hprecedes hothers) (hprecedes hrectangles)
  intro first second _ _ hforth hback
  exact absurd hback hforth.asymm

/-- The cover of a rectangular grid is its canonical one: the maximal stacks of its runs, each
once, in the order of the first occurrence of their columns and from top to bottom, which no other
list of rectangles is. -/
theorem compact_isCanonicalCover {grid : Grid} (hgrid : grid.isRectangular = true) :
    ∃ rectangles, grid.compact = .ok rectangles ∧ grid.IsCanonicalCover rectangles ∧
      ∀ others, grid.IsCanonicalCover others → others = rectangles :=
  ⟨_, compact_eq_ok hgrid, isCanonicalCover_stacked grid, fun _ hothers ↦
    (isCanonicalCover_stacked grid).unique hothers⟩

/-- Two columns whose runs are interrupted, on different rows, and taken up again. -/
theorem compact_isCanonicalCover_interrupted :
    isRectangular [[true, false, true], [true, false, false], [false, false, true],
        [true, false, true]] = true ∧
      ∃ rectangles,
        compact [[true, false, true], [true, false, false], [false, false, true],
          [true, false, true]] = .ok rectangles ∧
        IsCanonicalCover [[true, false, true], [true, false, false], [false, false, true],
          [true, false, true]] rectangles ∧
        ∀ others, IsCanonicalCover [[true, false, true], [true, false, false],
          [false, false, true], [true, false, true]] others → others = rectangles :=
  ⟨rfl, compact_isCanonicalCover rfl⟩

end Grid

end PixelFont
