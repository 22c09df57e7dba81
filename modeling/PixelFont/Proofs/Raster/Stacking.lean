import PixelFont.Proofs.Grouping
import PixelFont.Proofs.Raster.Scan
import PixelFont.Proofs.Traversal

/-!
Stacking as a cover: the rectangles into which spans stack hold every cell as often as the spans
do. The piles of an extent hold every row as often as it is listed, in whatever order
(`countP_piles`); an extent turns its piles into rectangles, and the distinct extents share out the
spans. Main statements: `stack_eq_ok`, which writes the rectangles out, and `countP_stacked`.
-/

set_option autoImplicit false

namespace PixelFont

namespace Rectangle

theorem contains_eq_true_iff {rectangle : Rectangle} {row column : Int} :
    rectangle.contains row column = true ↔
      (rectangle.top ≤ row ∧ row < rectangle.top + rectangle.height) ∧
        rectangle.left ≤ column ∧ column < rectangle.left + rectangle.width := by
  simp only [contains, Bool.and_eq_true, decide_eq_true_eq]
  tauto

theorem make_eq_ok {left top width height : Int} (hwidth : 0 < width) (hheight : 0 < height) :
    make left top width height = .ok ⟨left, top, width, height, hwidth, hheight⟩ := by
  rw [make, dif_pos ⟨hwidth, hheight⟩]

/-- The rectangle over an extent of columns whose rows are those of a pile, if it has a cell. -/
def ofPile? (extent pile : Int × Int) : Option Rectangle :=
  (make extent.1 pile.1 extent.2 pile.2).toOption

theorem ofPile?_eq_some {extent pile : Int × Int} (hwidth : 0 < extent.2) (hheight : 0 < pile.2) :
    ofPile? extent pile = some ⟨extent.1, pile.1, extent.2, pile.2, hwidth, hheight⟩ := by
  rw [ofPile?, make_eq_ok hwidth hheight]
  rfl

end Rectangle

namespace Span

/-! ### Piles of rows -/

theorem height_pos_of_mem_piles {rows : List Int} {pile : Int × Int} (hpile : pile ∈ piles rows) :
    0 < pile.2 := by
  induction rows generalizing pile with
  | nil => exact absurd hpile List.not_mem_nil
  | cons row rows ih =>
    rw [piles] at hpile
    split at hpile
    · rw [List.mem_singleton.mp hpile]
      exact Int.one_pos
    · rename_i next height rest hrest
      have hrests : ∀ other ∈ (next, height) :: rest, 0 < other.2 := fun _ hother ↦
        ih (hrest ▸ hother)
      split at hpile
      · rcases List.mem_cons.mp hpile with rfl | hpile
        · exact Int.add_pos (hrests _ List.mem_cons_self) Int.one_pos
        · exact hrests pile (List.mem_cons_of_mem _ hpile)
      · rcases List.mem_cons.mp hpile with rfl | hpile
        · exact Int.one_pos
        · exact hrests pile hpile

/-- A row in front of others adds itself to the rows held: it joins the pile that begins with the
row after it, or begins one. -/
theorem countP_piles_cons (first : Int) (rows : List Int) (row : Int) :
    (piles (first :: rows)).countP (Stretch.holds · row) =
      (piles rows).countP (Stretch.holds · row) + if row = first then 1 else 0 := by
  rw [piles]
  split
  · rename_i hrest
    rw [hrest, List.countP_singleton, Stretch.indicator_single]
    exact (Nat.zero_add _).symm
  · rename_i next height rest hrest
    split
    · rename_i hnext
      have hmem : (next, height) ∈ piles rows := hrest ▸ List.mem_cons_self
      have hheight : 0 < height := height_pos_of_mem_piles hmem
      rw [hrest, List.countP_cons, List.countP_cons, hnext, Nat.add_assoc,
        ← Stretch.indicator_extended (Int.le_of_lt hheight)]
    · rw [hrest, List.countP_cons, Stretch.indicator_single]

/-- Piles hold every row as often as it is listed. -/
theorem countP_piles (rows : List Int) (row : Int) :
    (piles rows).countP (Stretch.holds · row) = rows.count row := by
  induction rows with
  | nil => rfl
  | cons first rows ih =>
    rw [countP_piles_cons, ih, List.count_cons]
    simp only [beq_iff_eq, @eq_comm _ row]

/-! ### The spans of an extent -/

/-- The rectangles into which the spans of an extent stack, those without cells left out. -/
def stackedExtent (spans : List Span) (extent : Int × Int) : List Rectangle :=
  (piles (rowsOf spans extent)).filterMap (Rectangle.ofPile? extent)

theorem stackExtent_eq_ok (spans : List Span) {extent : Int × Int} (hwidth : 0 < extent.2) :
    stackExtent spans extent = .ok (stackedExtent spans extent) :=
  Traversal.mapM_eq_ok_filterMap fun _ hpile ↦
    ⟨_, Rectangle.make_eq_ok hwidth (height_pos_of_mem_piles hpile)⟩

theorem count_rowsOf (spans : List Span) (extent : Int × Int) (row : Int) :
    (rowsOf spans extent).count row =
      spans.countP fun span ↦ span.extent == extent && span.row == row := by
  rw [rowsOf, (List.mergeSort_perm _ _).count_eq, List.count, List.countP_map, List.countP_filter]
  refine List.countP_congr fun span _ ↦ ?_
  simp only [Function.comp_apply, Bool.and_eq_true]
  exact and_comm

theorem mem_rowsOf_iff {spans : List Span} {extent : Int × Int} {row : Int} :
    row ∈ rowsOf spans extent ↔ ∃ span ∈ spans, span.extent = extent ∧ span.row = row := by
  rw [← List.count_pos_iff, count_rowsOf, List.countP_pos_iff]
  simp only [Bool.and_eq_true, beq_iff_eq]

/-- The rectangles of an extent hold every cell as often as the spans of that extent do. -/
theorem countP_stackedExtent (spans : List Span) {extent : Int × Int} (hwidth : 0 < extent.2)
    (row column : Int) :
    (stackedExtent spans extent).countP (·.contains row column) =
      spans.countP fun span ↦ span.extent == extent && span.contains row column := by
  have hpiles : (stackedExtent spans extent).countP (·.contains row column) =
      (piles (rowsOf spans extent)).countP fun pile ↦
        Stretch.holds pile row && Stretch.holds extent column := by
    rw [stackedExtent, List.countP_filterMap]
    refine List.countP_congr fun pile hpile ↦ ?_
    rw [Rectangle.ofPile?_eq_some hwidth (height_pos_of_mem_piles hpile)]
    simp [Rectangle.contains, Stretch.holds, and_assoc]
  have hspans : (fun span : Span ↦ span.extent == extent && span.contains row column) =
      fun span ↦ (span.extent == extent && span.row == row) && Stretch.holds extent column := by
    funext span
    by_cases hextent : span.extent = extent
    · rw [contains_eq, hextent, Bool.and_assoc]
    · rw [beq_false_of_ne hextent]
      rfl
  rw [hpiles, hspans]
  cases Stretch.holds extent column
  · simp
  · simp only [Bool.and_true]
    rw [countP_piles, count_rowsOf]

/-! ### All spans -/

/-- The rectangles into which spans stack, extent by extent. -/
def stacked (spans : List Span) : List Rectangle :=
  (extents spans).flatMap (stackedExtent spans)

theorem width_pos_of_mem_extents {spans : List Span} (hspans : ∀ span ∈ spans, 0 < span.width)
    {extent : Int × Int} (hextent : extent ∈ extents spans) : 0 < extent.2 := by
  obtain ⟨span, hspan, rfl⟩ := List.mem_map.mp (List.mem_eraseDups.mp hextent)
  exact hspans span hspan

/-- Spans that all have a cell stack without an error. -/
theorem stack_eq_ok {spans : List Span} (hspans : ∀ span ∈ spans, 0 < span.width) :
    stack spans = .ok (stacked spans) := by
  have hgroups : (extents spans).mapM (stackExtent spans) =
      .ok ((extents spans).map (stackedExtent spans)) :=
    Traversal.mapM_eq_ok fun extent hextent ↦
      stackExtent_eq_ok spans (width_pos_of_mem_extents hspans hextent)
  rw [stack, hgroups]
  rfl

/-- Stacked rectangles hold every cell as often as the spans do. -/
theorem countP_stacked {spans : List Span} (hspans : ∀ span ∈ spans, 0 < span.width)
    (row column : Int) :
    (stacked spans).countP (·.contains row column) = spans.countP (·.contains row column) := by
  rw [stacked, Grouping.countP_flatMap_eq_total, Grouping.total_congr fun extent hextent ↦
    countP_stackedExtent spans (width_pos_of_mem_extents hspans hextent) row column]
  exact Grouping.total_countP_eraseDups extent (·.contains row column) spans

end Span

end PixelFont
