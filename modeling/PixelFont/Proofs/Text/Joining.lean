/-!
Texts joined by a mark of one character that stands in none of them: they are found again by
splitting at the mark.
-/

set_option autoImplicit false

namespace PixelFont.Text

/-- The pieces of a text that is split hold nothing at which it is split. -/
theorem forall_mem_splitOnP {isMark : Char → Bool} {text : List Char} :
    ∀ piece ∈ text.splitOnP isMark, ∀ c ∈ piece, isMark c = false := by
  induction text with
  | nil =>
    intro piece hpiece c hc
    rw [List.mem_singleton.mp hpiece] at hc
    exact absurd hc List.not_mem_nil
  | cons first text ih =>
    rw [List.splitOnP_cons_eq_if_modifyHead]
    split
    · exact List.forall_mem_cons.mpr ⟨fun c hc ↦ absurd hc List.not_mem_nil, ih⟩
    · rename_i hfirst
      cases hpieces : text.splitOnP isMark with
      | nil => exact absurd hpieces (List.splitOnP_ne_nil _ _)
      | cons piece pieces =>
        rw [hpieces, List.forall_mem_cons] at ih
        rw [List.modifyHead_cons, List.forall_mem_cons, List.forall_mem_cons]
        exact ⟨⟨Bool.eq_false_iff.mpr hfirst, ih.1⟩, ih.2⟩

/-- In texts joined by a mark a character is the mark or one of a text. -/
theorem mem_intercalate {separator : Char} {parts : List (List Char)} {c : Char}
    (hmem : c ∈ [separator].intercalate parts) : c = separator ∨ ∃ part ∈ parts, c ∈ part := by
  induction parts with
  | nil => exact absurd hmem List.not_mem_nil
  | cons part parts ih =>
    cases parts with
    | nil =>
      rw [List.intercalate_singleton] at hmem
      exact Or.inr ⟨part, List.mem_cons_self, hmem⟩
    | cons other parts =>
      rw [List.intercalate_cons_cons, List.mem_append, List.mem_append,
        List.mem_singleton] at hmem
      rcases hmem with (hpart | hmark) | hrest
      · exact Or.inr ⟨part, List.mem_cons_self, hpart⟩
      · exact Or.inl hmark
      · rcases ih hrest with hmark | ⟨found, hfound, hc⟩
        · exact Or.inl hmark
        · exact Or.inr ⟨found, List.mem_cons_of_mem part hfound, hc⟩

/-- Every character of a text that is joined with others is one of the whole. -/
theorem mem_intercalate_of_mem (separator : Char) {parts : List (List Char)} {part : List Char}
    (hpart : part ∈ parts) {c : Char} (hc : c ∈ part) : c ∈ [separator].intercalate parts := by
  induction parts with
  | nil => exact absurd hpart List.not_mem_nil
  | cons first parts ih =>
    cases parts with
    | nil =>
      rw [List.intercalate_singleton, ← List.mem_singleton.mp hpart]
      exact hc
    | cons other parts =>
      rw [List.intercalate_cons_cons]
      rcases List.mem_cons.mp hpart with rfl | hrest
      · exact List.mem_append_left _ (List.mem_append_left _ hc)
      · exact List.mem_append_right _ (ih hrest)

variable {mark : String} {separator : Char}

theorem splitOn_intercalate (hmark : mark.toList = [separator]) {parts : List String}
    (hparts : parts ≠ []) (hfree : ∀ part ∈ parts, separator ∉ part.toList) :
    (mark.intercalate parts).toList.splitOn separator = parts.map String.toList := by
  rw [String.toList_intercalate, hmark]
  refine List.splitOn_intercalate separator ?_ ?_
  · intro part hpart
    obtain ⟨text, htext, rfl⟩ := List.mem_map.mp hpart
    exact hfree text htext
  · exact fun hnil ↦ hparts (List.map_eq_nil_iff.mp hnil)

/-- Texts joined are the only ones that give what they give, unless there are none. -/
theorem intercalate_injective (hmark : mark.toList = [separator]) {first second : List String}
    (hfirst : first ≠ []) (hsecond : second ≠ [])
    (hfirstFree : ∀ part ∈ first, separator ∉ part.toList)
    (hsecondFree : ∀ part ∈ second, separator ∉ part.toList)
    (hsame : mark.intercalate first = mark.intercalate second) : first = second := by
  have hsplit := splitOn_intercalate hmark hfirst hfirstFree
  rw [hsame, splitOn_intercalate hmark hsecond hsecondFree] at hsplit
  exact (List.map_inj_right fun _ _ ↦ String.toList_inj.mp).mp hsplit.symm

end PixelFont.Text
