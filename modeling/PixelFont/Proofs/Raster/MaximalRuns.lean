import Mathlib.Data.List.Pairwise
import PixelFont.Proofs.Raster.Stacking

/-!
Runs and piles as maximal stretches. A stretch of places that have a property is maximal if the
place before it and the place after it do not have it. Stretches that leave a place between any two
of them and together hold the places of a property are its maximal stretches, all of them
(`Stretch.mem_iff_isMaximal`). The row scan and the piling of rows both lay stretches apart in this
way: a filled cell, or a row, joins the stretch that begins right after it or begins one that does
not touch the next. Main statements: `Span.mem_ofGrid_iff` for the runs of a grid, and
`Span.mem_piles_iff` for rows in increasing order.
-/

set_option autoImplicit false

namespace PixelFont

/-! ### Maximal stretches -/

namespace Stretch

/-- A stretch of at least one place holds places of a property only and cannot be lengthened: the
place before it and the place after it do not have the property. -/
structure IsMaximal (property : Int → Prop) (stretch : Int × Int) : Prop where
  length_pos : 0 < stretch.2
  property_of_holds : ∀ place, holds stretch place = true → property place
  before : ¬ property (stretch.1 - 1)
  after : ¬ property (stretch.1 + stretch.2)

/-- Stretches in order of their places, with at least one place between any two. -/
def AreApart (stretches : List (Int × Int)) : Prop :=
  stretches.Pairwise fun first second ↦ first.1 + first.2 < second.1

variable {property : Int → Prop} {stretches : List (Int × Int)} {first second : Int × Int}

namespace IsMaximal

theorem first_le_of_holds (hfirst : IsMaximal property first) (hsecond : IsMaximal property second)
    {place : Int} (hheld : holds first place = true) (hother : holds second place = true) :
    second.1 ≤ first.1 := by
  rw [holds_eq_true_iff] at hheld hother
  by_contra hlater
  exact hsecond.before (hfirst.property_of_holds _ (holds_eq_true_iff.mpr (by omega)))

theorem last_le_of_holds (hfirst : IsMaximal property first) (hsecond : IsMaximal property second)
    {place : Int} (hheld : holds first place = true) (hother : holds second place = true) :
    first.1 + first.2 ≤ second.1 + second.2 := by
  rw [holds_eq_true_iff] at hheld hother
  by_contra hlonger
  exact hsecond.after (hfirst.property_of_holds _ (holds_eq_true_iff.mpr (by omega)))

/-- Maximal stretches that share a place are the same. -/
theorem eq_of_holds (hfirst : IsMaximal property first) (hsecond : IsMaximal property second)
    {place : Int} (hheld : holds first place = true) (hother : holds second place = true) :
    first = second := by
  have hbegins := Int.le_antisymm (hsecond.first_le_of_holds hfirst hother hheld)
    (hfirst.first_le_of_holds hsecond hheld hother)
  have hends := Int.le_antisymm (hfirst.last_le_of_holds hsecond hheld hother)
    (hsecond.last_le_of_holds hfirst hother hheld)
  exact Prod.ext hbegins (by omega)

theorem holds_first (hfirst : IsMaximal property first) : holds first first.1 = true := by
  have hlength := hfirst.length_pos
  exact holds_eq_true_iff.mpr (by omega)

end IsMaximal

/-- Of two stretches laid apart, one ends before the other begins. -/
theorem AreApart.apart_of_mem (hapart : AreApart stretches) (hfirst : first ∈ stretches)
    (hsecond : second ∈ stretches) (hne : first ≠ second) :
    first.1 + first.2 < second.1 ∨ second.1 + second.2 < first.1 := by
  let apart (first second : Int × Int) : Prop :=
    first.1 + first.2 < second.1 ∨ second.1 + second.2 < first.1
  have hsymm : Std.Symm apart := ⟨fun _ _ h ↦ h.symm⟩
  have heither : stretches.Pairwise apart := hapart.imp Or.inl
  exact heither.forall hfirst hsecond hne

/-- Stretches laid apart that together hold the places of a property are its maximal stretches. -/
theorem mem_iff_isMaximal (hapart : AreApart stretches)
    (hlength : ∀ stretch ∈ stretches, 0 < stretch.2)
    (hplaces : ∀ place, (∃ stretch ∈ stretches, holds stretch place = true) ↔ property place)
    {stretch : Int × Int} : stretch ∈ stretches ↔ IsMaximal property stretch := by
  -- A place next to a stretch is not held by it, and every other stretch leaves a place between.
  have hmaximal {stretch : Int × Int} (hmem : stretch ∈ stretches) :
      IsMaximal property stretch := by
    have hown := hlength stretch hmem
    refine ⟨hown, fun place hheld ↦ (hplaces place).mp ⟨stretch, hmem, hheld⟩, ?_, ?_⟩ <;>
    · intro hplace
      obtain ⟨other, hother, hheld⟩ := (hplaces _).mpr hplace
      rw [holds_eq_true_iff] at hheld
      have hne : stretch ≠ other := by
        rintro rfl
        omega
      have hbetween := hapart.apart_of_mem hmem hother hne
      omega
  refine ⟨hmaximal, fun hstretch ↦ ?_⟩
  have hfirst := hstretch.property_of_holds _ hstretch.holds_first
  obtain ⟨other, hother, hheld⟩ := (hplaces _).mpr hfirst
  rw [hstretch.eq_of_holds (hmaximal hother) hstretch.holds_first hheld]
  exact hother

/-! ### Laying stretches apart -/

/-- Lengthening the first stretch by the place before it keeps stretches apart. -/
theorem AreApart.extended {first length : Int} {rest : List (Int × Int)}
    (hapart : AreApart ((first + 1, length) :: rest)) : AreApart ((first, length + 1) :: rest) := by
  rw [AreApart, List.pairwise_cons] at hapart ⊢
  refine ⟨fun other hother ↦ ?_, hapart.2⟩
  have hafter := hapart.1 other hother
  dsimp only at hafter ⊢
  omega

/-- A single place in front of stretches stays apart if it does not touch the first of them. -/
theorem AreApart.single {first : Int} (hapart : AreApart stretches)
    (hfirst : ∀ stretch ∈ stretches, first + 1 < stretch.1) :
    AreApart ((first, 1) :: stretches) :=
  List.pairwise_cons.mpr ⟨hfirst, hapart⟩

/-- Stretches laid apart of at least one place begin after the first of them. -/
theorem AreApart.lt_of_mem_cons {rest : List (Int × Int)} (hapart : AreApart (first :: rest))
    (hlength : 0 < first.2) {bound : Int} (hbound : bound < first.1) :
    ∀ stretch ∈ first :: rest, bound < stretch.1 := by
  intro stretch hstretch
  rcases List.mem_cons.mp hstretch with rfl | hrest
  · exact hbound
  · have hafter := (List.pairwise_cons.mp hapart).1 stretch hrest
    omega

end Stretch

/-! ### Runs of a grid -/

/-- Whether the cells of a place and width on a row are a maximal run: all of them are filled, and
the cell on either side is empty or lies outside the grid. -/
def Grid.IsRun (grid : Grid) (row : Int) (extent : Int × Int) : Prop :=
  Stretch.IsMaximal (fun column ↦ grid.fills row column = true) extent

namespace Span

open Stretch

/-- Whether a span stands on an earlier row, or on the same row further to the left with at least
one cell between. -/
def Precedes (first second : Span) : Prop :=
  first.row < second.row ∨ first.row = second.row ∧ first.left + first.width < second.left

theorem areApart_ofCellsFrom (row column : Int) (cells : List Bool) :
    AreApart ((ofCellsFrom row column cells).map extent) := by
  induction cells generalizing column with
  | nil => exact List.Pairwise.nil
  | cons cell cells ih =>
    cases cell with
    | false => exact ih (column + 1)
    | true =>
      have hrest := ih (column + 1)
      rw [ofCellsFrom]
      split
      · exact List.pairwise_singleton _ _
      · rename_i next others hnext
        have hmem : next ∈ ofCellsFrom row (column + 1) cells := hnext ▸ List.mem_cons_self
        obtain ⟨-, hleft, hwidth⟩ := bounds_of_mem_ofCellsFrom hmem
        rw [hnext, List.map_cons] at hrest
        split
        · rename_i htouches
          rw [extent, htouches] at hrest
          exact hrest.extended
        · rename_i hgap
          have hbeyond : column + 1 < next.extent.1 :=
            Int.lt_iff_le_and_ne.mpr ⟨hleft, Ne.symm hgap⟩
          exact hrest.single (hrest.lt_of_mem_cons hwidth hbeyond)

theorem pairwise_precedes_ofCells (row : Int) (cells : List Bool) :
    (ofCells row cells).Pairwise Precedes := by
  have hapart := areApart_ofCellsFrom row 0 cells
  rw [AreApart, List.pairwise_map] at hapart
  refine hapart.imp_of_mem fun {first second} hfirst hsecond hbetween ↦ Or.inr ⟨?_, hbetween⟩
  rw [(bounds_of_mem_ofCellsFrom hfirst).1, (bounds_of_mem_ofCellsFrom hsecond).1]

/-- The runs of a grid stand row by row and, within a row, from left to right. -/
theorem pairwise_precedes_ofRowsFrom (row : Int) (grid : Grid) :
    (ofRowsFrom row grid).Pairwise Precedes := by
  induction grid generalizing row with
  | nil => exact List.Pairwise.nil
  | cons cells rows ih =>
    refine List.pairwise_append.mpr ⟨pairwise_precedes_ofCells row cells, ih (row + 1), ?_⟩
    intro first hfirst second hsecond
    have hrow := (bounds_of_mem_ofCellsFrom hfirst).1
    have hlater := (bounds_of_mem_ofRowsFrom hsecond).1
    exact Or.inl (by omega)

/-- The extents of the runs of a grid on one row. -/
def extentsOn (grid : Grid) (row : Int) : List (Int × Int) :=
  ((ofGrid grid).filter fun span ↦ span.row == row).map extent

theorem mem_extentsOn_iff {grid : Grid} {row : Int} {extent : Int × Int} :
    extent ∈ extentsOn grid row ↔ ⟨extent.1, row, extent.2⟩ ∈ ofGrid grid := by
  simp only [extentsOn, List.mem_map, List.mem_filter, beq_iff_eq]
  constructor
  · rintro ⟨span, ⟨hspan, rfl⟩, rfl⟩
    exact hspan
  · intro hspan
    exact ⟨_, ⟨hspan, rfl⟩, rfl⟩

theorem areApart_extentsOn (grid : Grid) (row : Int) : AreApart (extentsOn grid row) := by
  rw [AreApart, extentsOn, List.pairwise_map, List.pairwise_filter]
  refine (pairwise_precedes_ofRowsFrom 0 grid).imp ?_
  intro first second hprecedes hfirst hsecond
  rw [beq_iff_eq] at hfirst hsecond
  rcases hprecedes with hearlier | ⟨-, hbetween⟩
  · omega
  · exact hbetween

/-- The runs on a row hold its filled cells. -/
theorem exists_extentsOn_holds_iff {grid : Grid} {row column : Int} :
    (∃ extent ∈ extentsOn grid row, holds extent column = true) ↔
      grid.fills row column = true := by
  have hspans : (∃ extent ∈ extentsOn grid row, holds extent column = true) ↔
      ∃ span ∈ ofGrid grid, span.contains row column = true := by
    constructor
    · rintro ⟨extent, hextent, hheld⟩
      exact ⟨_, mem_extentsOn_iff.mp hextent, (contains_eq_holds rfl column).trans hheld⟩
    · rintro ⟨span, hspan, hheld⟩
      rw [contains_eq, Bool.and_eq_true, beq_iff_eq] at hheld
      refine ⟨span.extent, ?_, hheld.2⟩
      rw [mem_extentsOn_iff, ← hheld.1]
      exact hspan
  rw [hspans, ← List.countP_pos_iff, countP_ofGrid]
  split <;> simp [*]

/-- The runs of a grid are its maximal runs of filled cells, all of them. -/
theorem mem_ofGrid_iff {grid : Grid} {span : Span} :
    span ∈ ofGrid grid ↔ grid.IsRun span.row span.extent := by
  have hwidth : ∀ extent ∈ extentsOn grid span.row, 0 < extent.2 := fun extent hextent ↦
    (bounds_of_mem_ofRowsFrom (mem_extentsOn_iff.mp hextent)).2.2
  have hruns : span.extent ∈ extentsOn grid span.row ↔ grid.IsRun span.row span.extent :=
    mem_iff_isMaximal (areApart_extentsOn grid span.row) hwidth fun _ ↦ exists_extentsOn_holds_iff
  rw [← hruns, mem_extentsOn_iff]
  rfl

/-! ### Piles of rows in increasing order -/

/-- A pile begins with one of the rows. -/
theorem mem_of_mem_piles {rows : List Int} {pile : Int × Int} (hpile : pile ∈ piles rows) :
    pile.1 ∈ rows := by
  have hheight := height_pos_of_mem_piles hpile
  have hheld : holds pile pile.1 = true := holds_eq_true_iff.mpr (by omega)
  rw [← List.count_pos_iff, ← countP_piles]
  exact List.countP_pos_iff.mpr ⟨pile, hpile, hheld⟩

theorem areApart_piles {rows : List Int} (hrows : rows.Pairwise (· < ·)) :
    AreApart (piles rows) := by
  induction rows with
  | nil => exact List.Pairwise.nil
  | cons row rows ih =>
    obtain ⟨hfirst, hlater⟩ := List.pairwise_cons.mp hrows
    have hrest := ih hlater
    rw [piles]
    split
    · exact List.pairwise_singleton _ _
    · rename_i next height rest hnext
      have hmem : (next, height) ∈ piles rows := hnext ▸ List.mem_cons_self
      have hbelow : row < next := hfirst next (mem_of_mem_piles hmem)
      have hheight : 0 < height := height_pos_of_mem_piles hmem
      rw [hnext] at hrest
      split
      · rename_i htouches
        subst htouches
        exact hrest.extended
      · rename_i hgap
        have hbeyond : row + 1 < next := by omega
        exact hrest.single (hrest.lt_of_mem_cons hheight hbeyond)

/-- The piles of rows in increasing order are the maximal stretches of those rows. -/
theorem mem_piles_iff {rows : List Int} (hrows : rows.Pairwise (· < ·)) {pile : Int × Int} :
    pile ∈ piles rows ↔ IsMaximal (· ∈ rows) pile := by
  refine mem_iff_isMaximal (areApart_piles hrows) (fun _ hpile ↦ height_pos_of_mem_piles hpile) ?_
  intro row
  rw [← List.countP_pos_iff, countP_piles, List.count_pos_iff]

end Span

end PixelFont
