import Mathlib.Data.List.Chain
import Mathlib.Data.List.Sort
import PixelFont.Proofs.Raster.MaximalRuns

/-!
The scan of one row, told apart from how it is done. `Span.IsScanOf` lists what the spans of a row
must be: on that row, inside it, from left to right with a cell between neighbours, and together
the filled cells. Spans like these are the maximal runs of the row, all of them and in order, so
that there is one such list only (`IsScanOf.eq`), and rows with an empty cell between them are
scanned apart (`IsScanOf.append`). Main statement: `Span.ofCells_isOnlyScan`.
-/

set_option autoImplicit false

namespace PixelFont

namespace Span

/-- The span some columns to the right. -/
def movedRight (distance : Int) (span : Span) : Span :=
  { span with left := span.left + distance }

/-- What the scan of a row must give. Neighbours leave at least one cell between them, and the
cells of the spans are the filled cells of the row. -/
structure IsScanOf (row : Int) (cells : List Bool) (spans : List Span) : Prop where
  row_eq : ∀ span ∈ spans, span.row = row
  left_lt_left : spans.Pairwise fun first second ↦ first.left < second.left
  width_pos : ∀ span ∈ spans, 0 < span.width
  inside : ∀ span ∈ spans, 0 ≤ span.left ∧ span.left + span.width ≤ cells.length
  apart : spans.IsChain fun first second ↦ first.left + first.width < second.left
  contains_iff : ∀ column : ℕ,
    (∃ span ∈ spans, span.contains row column = true) ↔ cells[column]? = some true

variable {row : Int} {cells : List Bool} {spans : List Span}

/-! ### The scan meets the description -/

theorem exists_ofCells_contains_iff {column : ℕ} :
    (∃ span ∈ ofCells row cells, span.contains row column = true) ↔
      cells[column]? = some true := by
  have hcount := countP_ofCellsFrom row 0 cells column
  rw [Int.zero_add] at hcount
  rw [← List.countP_pos_iff, ofCells, hcount]
  cases cells[column]? with
  | none => simp
  | some cell => cases cell <;> simp

theorem isScanOf_ofCells (row : Int) (cells : List Bool) :
    IsScanOf row cells (ofCells row cells) := by
  have hbounds {span : Span} (hspan : span ∈ ofCells row cells) :
      span.row = row ∧ 0 ≤ span.left ∧ 0 < span.width := bounds_of_mem_ofCellsFrom hspan
  have hapart := areApart_ofCellsFrom row 0 cells
  rw [Stretch.AreApart, List.pairwise_map] at hapart
  refine {
    row_eq := fun span hspan ↦ (hbounds hspan).1
    left_lt_left := hapart.imp_of_mem fun {first second} hfirst _ hbetween ↦ ?_
    width_pos := fun span hspan ↦ (hbounds hspan).2.2
    inside := fun span hspan ↦ ⟨(hbounds hspan).2.1, ?_⟩
    apart := hapart.isChain
    contains_iff := fun column ↦ exists_ofCells_contains_iff }
  · have hwidth := (hbounds hfirst).2.2
    dsimp only [extent] at hbetween
    omega
  · -- The last cell of a span is filled and therefore a cell of the row.
    obtain ⟨hrow, hleft, hwidth⟩ := hbounds hspan
    obtain ⟨last, hlast⟩ := Int.eq_ofNat_of_zero_le (show 0 ≤ span.left + span.width - 1 by omega)
    have hheld : span.contains row last = true :=
      contains_eq_true_iff.mpr ⟨hrow, by omega, by omega⟩
    obtain ⟨hwithin, -⟩ :=
      List.getElem?_eq_some_iff.mp (exists_ofCells_contains_iff.mp ⟨span, hspan, hheld⟩)
    omega

/-! ### Nothing else meets it -/

/-- Spans that begin further and further to the right and do not touch their neighbours do not
touch each other. -/
theorem areApart_of_isChain
    (hlefts : spans.Pairwise fun first second ↦ first.left < second.left)
    (hchain : spans.IsChain fun first second ↦ first.left + first.width < second.left) :
    Stretch.AreApart (spans.map extent) := by
  rw [Stretch.AreApart, List.pairwise_map]
  induction spans with
  | nil => exact List.Pairwise.nil
  | cons first spans ih =>
    obtain ⟨-, hlater⟩ := List.pairwise_cons.mp hlefts
    refine List.pairwise_cons.mpr ⟨fun other hother ↦ ?_, ih hlater hchain.tail⟩
    cases spans with
    | nil => exact absurd hother List.not_mem_nil
    | cons second rest =>
      have hsecond : first.left + first.width < second.left :=
        (List.isChain_cons_cons.mp hchain).1
      rcases List.mem_cons.mp hother with rfl | hrest
      · exact hsecond
      · exact hsecond.trans ((List.pairwise_cons.mp hlater).1 other hrest)

namespace IsScanOf

/-- The spans of a row are its maximal runs of filled cells, all of them. -/
theorem mem_iff (hscan : IsScanOf row cells spans) {span : Span} :
    span ∈ spans ↔ span.row = row ∧ Stretch.IsMaximal
      (fun column ↦ ∃ place : ℕ, column = place ∧ cells[place]? = some true) span.extent := by
  have hwidth : ∀ stretch ∈ spans.map extent, 0 < stretch.2 :=
    List.forall_mem_map.mpr hscan.width_pos
  have hplaces (column : Int) :
      (∃ stretch ∈ spans.map extent, Stretch.holds stretch column = true) ↔
        ∃ place : ℕ, column = place ∧ cells[place]? = some true := by
    simp only [List.mem_map, exists_exists_and_eq_and]
    constructor
    · rintro ⟨span, hspan, hheld⟩
      have hleft := (hscan.inside span hspan).1
      have hbounds := Stretch.holds_eq_true_iff.mp hheld
      dsimp only [extent] at hbounds
      obtain ⟨place, rfl⟩ := Int.eq_ofNat_of_zero_le (show 0 ≤ column by omega)
      rw [← contains_eq_holds (hscan.row_eq span hspan)] at hheld
      exact ⟨place, rfl, (hscan.contains_iff place).mp ⟨span, hspan, hheld⟩⟩
    · rintro ⟨place, rfl, hfilled⟩
      obtain ⟨span, hspan, hheld⟩ := (hscan.contains_iff place).mpr hfilled
      rw [contains_eq_holds (hscan.row_eq span hspan)] at hheld
      exact ⟨span, hspan, hheld⟩
  rw [← Stretch.mem_iff_isMaximal (areApart_of_isChain hscan.left_lt_left hscan.apart) hwidth
    hplaces]
  constructor
  · intro hspan
    exact ⟨hscan.row_eq span hspan, List.mem_map_of_mem hspan⟩
  · rintro ⟨hrow, hextent⟩
    obtain ⟨other, hother, hsame⟩ := List.mem_map.mp hextent
    obtain ⟨hleft, hwidth⟩ := Prod.ext_iff.mp hsame
    have heq : other = span := by
      cases other
      cases span
      exact Span.mk.injEq .. ▸ ⟨hleft, (hscan.row_eq _ hother).trans hrow.symm, hwidth⟩
    exact heq ▸ hother

/-- A row has one list of spans only. -/
theorem eq {others : List Span} (hscan : IsScanOf row cells spans)
    (hother : IsScanOf row cells others) : spans = others := by
  have hirrefl : Std.Irrefl fun first second : Span ↦ first.left < second.left :=
    ⟨fun span ↦ lt_irrefl span.left⟩
  exact hscan.left_lt_left.eq_of_mem_iff hother.left_lt_left
    fun span ↦ hscan.mem_iff.trans hother.mem_iff.symm

/-! ### Rows side by side -/

/-- Spans moved to the right hold the filled cells of a row moved with them. -/
theorem exists_contains_movedRight_iff (hscan : IsScanOf row cells spans) (distance column : ℕ) :
    (∃ span ∈ spans, (span.movedRight distance).contains row column = true) ↔
      distance ≤ column ∧ cells[column - distance]? = some true := by
  have hmoved (span : Span) : (span.movedRight distance).contains row column = true ↔
      span.row = row ∧ span.left + distance ≤ column ∧
        column < span.left + distance + span.width := contains_eq_true_iff
  rw [← hscan.contains_iff]
  simp only [hmoved, contains_eq_true_iff]
  constructor
  · rintro ⟨span, hspan, hrow, hleft, hright⟩
    have hinside := (hscan.inside span hspan).1
    exact ⟨by omega, span, hspan, hrow, by omega, by omega⟩
  · rintro ⟨hdistance, span, hspan, hrow, hleft, hright⟩
    exact ⟨span, hspan, hrow, by omega, by omega⟩

/-- What lies inside a row lies left of what is moved behind it. -/
theorem add_width_lt_left_movedRight {first other : Span} {others : List Span} {next : List Bool}
    (hscan : IsScanOf row cells spans) (hnext : IsScanOf row next others) (hfirst : first ∈ spans)
    (hother : other ∈ others) :
    first.left + first.width < (other.movedRight (cells.length + 1)).left := by
  have hends := (hscan.inside first hfirst).2
  have hbegins := (hnext.inside other hother).1
  dsimp only [movedRight]
  omega

/-- Two rows with an empty cell between them are scanned apart. -/
theorem append {others : List Span} {next : List Bool} (hscan : IsScanOf row cells spans)
    (hnext : IsScanOf row next others) :
    IsScanOf row (cells ++ false :: next)
      (spans ++ others.map (movedRight (cells.length + 1))) where
  row_eq := List.forall_mem_append.mpr
    ⟨hscan.row_eq, List.forall_mem_map.mpr hnext.row_eq⟩
  left_lt_left := by
    refine List.pairwise_append.mpr ⟨hscan.left_lt_left, List.pairwise_map.mpr
      (hnext.left_lt_left.imp fun hleft ↦ Int.add_lt_add_right hleft _), ?_⟩
    intro first hfirst second hsecond
    obtain ⟨other, hother, rfl⟩ := List.mem_map.mp hsecond
    have hbetween := add_width_lt_left_movedRight hscan hnext hfirst hother
    have hwidth := hscan.width_pos first hfirst
    omega
  width_pos := List.forall_mem_append.mpr
    ⟨hscan.width_pos, List.forall_mem_map.mpr hnext.width_pos⟩
  inside := by
    rw [List.length_append, List.length_cons]
    refine List.forall_mem_append.mpr
      ⟨fun span hspan ↦ ?_, List.forall_mem_map.mpr fun span hspan ↦ ?_⟩
    · have hinside := hscan.inside span hspan
      omega
    · have hinside := hnext.inside span hspan
      dsimp only [movedRight]
      omega
  apart := by
    refine List.isChain_append.mpr ⟨hscan.apart, (List.isChain_map _).mpr
      (hnext.apart.imp fun _ _ hbetween ↦ ?_), fun first hfirst second hsecond ↦ ?_⟩
    · dsimp only [movedRight]
      omega
    · obtain ⟨other, hother, rfl⟩ := List.mem_map.mp (List.mem_of_mem_head? hsecond)
      exact add_width_lt_left_movedRight hscan hnext (List.mem_of_mem_getLast? hfirst) hother
  contains_iff := by
    intro column
    have hmoved := hnext.exists_contains_movedRight_iff (cells.length + 1) column
    push_cast at hmoved
    simp only [List.mem_append, or_and_right, exists_or, List.mem_map, exists_exists_and_eq_and,
      hscan.contains_iff, hmoved]
    rcases lt_trichotomy column cells.length with hbefore | rfl | hbehind
    · rw [List.getElem?_append_left hbefore]
      exact or_iff_left fun hplace ↦ absurd hplace.1 (by omega)
    · simp
    · obtain ⟨place, rfl⟩ := Nat.exists_eq_add_of_lt hbehind
      have hplace : cells.length + place + 1 - cells.length = place + 1 := by omega
      have hfirst : cells[cells.length + place + 1]? = none :=
        List.getElem?_eq_none (by omega)
      rw [List.getElem?_append_right (by omega), hplace, List.getElem?_cons_succ, hfirst]
      have hback : cells.length + place + 1 - (cells.length + 1) = place := by omega
      rw [hback]
      simp only [reduceCtorEq, false_or, and_iff_right_iff_imp]
      omega

end IsScanOf

/-- The scan of a row gives the only spans that are on that row, inside it and in order, leave a
cell between neighbours and hold just the filled cells; and the scan of two rows with an empty cell
between them gives the spans of the first and then those of the second, moved behind it. -/
theorem ofCells_isOnlyScan (row : Int) (cells : List Bool) :
    (∀ spans, IsScanOf row cells spans ↔ spans = ofCells row cells) ∧
      ∀ next, ofCells row (cells ++ false :: next) =
        ofCells row cells ++ (ofCells row next).map (movedRight (cells.length + 1)) := by
  refine ⟨fun spans ↦ ⟨fun hscan ↦ hscan.eq (isScanOf_ofCells row cells), ?_⟩, fun next ↦ ?_⟩
  · rintro rfl
    exact isScanOf_ofCells row cells
  · have happend := (isScanOf_ofCells row cells).append (isScanOf_ofCells row next)
    exact (isScanOf_ofCells row _).eq happend

end Span

end PixelFont
