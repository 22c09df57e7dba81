import Mathlib.Data.Int.Order.Basic
import Mathlib.Data.List.Perm.Basic
import Mathlib.Data.List.Sort
import PixelFont.Proofs.Raster.Stacking

/-!
Stacking spans that come from anywhere: in any order, on either side of the origin, several times
or one over another. The rows of an extent are put in order before they are piled, so that the
order of the spans tells in the order of the rectangles only (`stacked_perm`). A span without cells
is met at the first extent that has none, which is that of the first such span
(`exists_stack_eq_error`). Main statement: `stack_rearranged`.
-/

set_option autoImplicit false

namespace PixelFont

namespace Span

variable {spans others : List Span}

/-! ### The order of spans -/

/-- The rows of an extent do not depend on the order of the spans. -/
theorem rowsOf_congr (hperm : others.Perm spans) (extent : Int × Int) :
    rowsOf others extent = rowsOf spans extent :=
  Grouping.mergeSort_congr ((hperm.filter _).map row)

theorem extents_perm (hperm : others.Perm spans) : (extents others).Perm (extents spans) :=
  Grouping.perm_eraseDups (hperm.map extent)

/-- Spans in another order stack into the same rectangles, which may come in another order. -/
theorem stacked_perm (hperm : others.Perm spans) : (stacked others).Perm (stacked spans) := by
  refine (extents_perm hperm).flatMap fun extent _ ↦ ?_
  rw [stackedExtent, stackedExtent, rowsOf_congr hperm]

/-! ### Spans without cells -/

/-- A span of a new extent brings it in right after the extents of the spans before. -/
theorem exists_extents_eq_append {before after : List Span} {span : Span}
    (hnew : ∀ earlier ∈ before, earlier.extent ≠ span.extent) :
    ∃ rest, extents (before ++ span :: after) = extents before ++ span.extent :: rest := by
  have hnotMem : (before.map extent).contains span.extent = false := by
    rw [Bool.eq_false_iff, Ne, List.contains_iff_mem]
    intro hmem
    obtain ⟨earlier, hearlier, hsame⟩ := List.mem_map.mp hmem
    exact hnew earlier hearlier hsame
  rw [extents, List.map_append, List.map_cons, List.eraseDups_append, List.cons_removeAll,
    if_pos hnotMem, List.eraseDups_cons]
  exact ⟨_, rfl⟩

/-- An extent without columns fails at its first pile. -/
theorem exists_stackExtent_eq_error {span : Span} (hspan : span ∈ spans)
    (hwidth : span.width ≤ 0) :
    ∃ height, 0 < height ∧
      stackExtent spans span.extent = .error (.emptyExtent span.width height) := by
  have hrow : span.row ∈ rowsOf spans span.extent := mem_rowsOf_iff.mpr ⟨span, hspan, rfl, rfl⟩
  have hheld : 0 < (piles (rowsOf spans span.extent)).countP (Stretch.holds · span.row) := by
    rw [countP_piles]
    exact List.count_pos_iff.mpr hrow
  cases hpiles : piles (rowsOf spans span.extent) with
  | nil =>
    rw [hpiles] at hheld
    exact absurd hheld (Nat.lt_irrefl 0)
  | cons pile rest =>
    obtain ⟨top, height⟩ := pile
    have hmem : (top, height) ∈ piles (rowsOf spans span.extent) := hpiles ▸ List.mem_cons_self
    have hempty : ¬ (0 < span.extent.2 ∧ 0 < height) := fun h ↦ Int.not_lt.mpr hwidth h.1
    have hfirst : Rectangle.make span.extent.1 top span.extent.2 height =
        .error (.emptyExtent span.width height) := dif_neg hempty
    refine ⟨height, height_pos_of_mem_piles hmem, ?_⟩
    rw [stackExtent, hpiles, List.mapM_cons]
    dsimp only
    rw [hfirst]
    rfl

/-- Spans of which some have no cell are refused, with the width of the first of these. -/
theorem exists_stack_eq_error (hempty : ∃ span ∈ spans, span.width ≤ 0) :
    ∃ span height, spans.find? (·.width ≤ 0) = some span ∧ 0 < height ∧
      stack spans = .error (.emptyExtent span.width height) := by
  obtain ⟨span, hfound⟩ : ∃ span, spans.find? (·.width ≤ 0) = some span := by
    rw [← Option.isSome_iff_exists, List.find?_isSome]
    simpa using hempty
  obtain ⟨hwidth, before, after, rfl, hbefore⟩ := List.find?_eq_some_iff_append.mp hfound
  rw [decide_eq_true_eq] at hwidth
  have hpos : ∀ earlier ∈ before, 0 < earlier.width := by simpa using hbefore
  have hnew : ∀ earlier ∈ before, earlier.extent ≠ span.extent := by
    intro earlier hearlier hsame
    have hsameWidth : earlier.width = span.width := congrArg Prod.snd hsame
    have hearlierWidth := hpos earlier hearlier
    omega
  obtain ⟨rest, hextents⟩ :
      ∃ rest, extents (before ++ span :: after) = extents before ++ span.extent :: rest :=
    exists_extents_eq_append hnew
  obtain ⟨height, hheight, herror⟩ :=
    exists_stackExtent_eq_error (List.mem_append_right before List.mem_cons_self) hwidth
  have hearlier : ∀ extent ∈ extents before,
      ∃ rectangles, stackExtent (before ++ span :: after) extent = .ok rectangles :=
    fun extent hextent ↦ ⟨_, stackExtent_eq_ok _ (width_pos_of_mem_extents hpos hextent)⟩
  refine ⟨span, height, hfound, hheight, ?_⟩
  rw [stack, hextents, Traversal.mapM_eq_error_of_first hearlier herror]
  rfl

/-! ### Spans from anywhere -/

/-- Spans that all have a cell stack into rectangles that hold every cell as often as the spans do,
and in any other order into the same rectangles. Spans of which some have no cell are refused. -/
theorem stack_rearranged (spans : List Span) :
    ((∀ span ∈ spans, 0 < span.width) →
      ∃ rectangles, stack spans = .ok rectangles ∧
        (∀ row column : Int, rectangles.countP (·.contains row column) =
          spans.countP (·.contains row column)) ∧
        ∀ others, others.Perm spans →
          ∃ rearranged, stack others = .ok rearranged ∧ rearranged.Perm rectangles) ∧
      ((∃ span ∈ spans, span.width ≤ 0) →
        ∃ span height, spans.find? (·.width ≤ 0) = some span ∧ 0 < height ∧
          stack spans = .error (.emptyExtent span.width height)) := by
  refine ⟨fun hspans ↦ ?_, exists_stack_eq_error⟩
  refine ⟨_, stack_eq_ok hspans, countP_stacked hspans, fun others hperm ↦ ?_⟩
  have hothers : ∀ span ∈ others, 0 < span.width := fun span hspan ↦
    hspans span (hperm.mem_iff.mp hspan)
  exact ⟨_, stack_eq_ok hothers, stacked_perm hperm⟩

/-- Spans out of order, one of them twice and one over another and over the origin, and spans of
which the second has no cell. -/
theorem stack_rearranged_overlapping :
    (∀ span ∈ ([⟨0, 1, 2⟩, ⟨0, 0, 2⟩, ⟨-1, 0, 2⟩, ⟨0, 1, 2⟩] : List Span), 0 < span.width) ∧
      (∃ span ∈ ([⟨0, 0, 1⟩, ⟨3, 2, -1⟩, ⟨3, 3, 0⟩] : List Span), span.width ≤ 0) ∧
      (∃ rectangles,
        stack [⟨0, 1, 2⟩, ⟨0, 0, 2⟩, ⟨-1, 0, 2⟩, ⟨0, 1, 2⟩] = .ok rectangles ∧
        (∀ row column : Int, rectangles.countP (·.contains row column) =
          ([⟨0, 1, 2⟩, ⟨0, 0, 2⟩, ⟨-1, 0, 2⟩, ⟨0, 1, 2⟩] : List Span).countP
            (·.contains row column)) ∧
        ∀ others, others.Perm [⟨0, 1, 2⟩, ⟨0, 0, 2⟩, ⟨-1, 0, 2⟩, ⟨0, 1, 2⟩] →
          ∃ rearranged, stack others = .ok rearranged ∧ rearranged.Perm rectangles) ∧
      ∃ span height,
        ([⟨0, 0, 1⟩, ⟨3, 2, -1⟩, ⟨3, 3, 0⟩] : List Span).find? (·.width ≤ 0) = some span ∧
          0 < height ∧
          stack [⟨0, 0, 1⟩, ⟨3, 2, -1⟩, ⟨3, 3, 0⟩] = .error (.emptyExtent span.width height) :=
  ⟨by decide, by decide, (stack_rearranged _).1 (by decide), (stack_rearranged _).2 (by decide)⟩

end Span

end PixelFont
