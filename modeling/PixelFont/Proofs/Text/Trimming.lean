import Mathlib.Data.List.Basic
import Mathlib.Data.List.TakeWhile
import PixelFont.Proofs.Text.Joining
import PixelFont.Text.Space

/-!
Texts that trimming leaves as they are: those that neither begin nor end with white space. What is
put before or behind such a text is told apart from it, and words joined by single spaces are
found again.
-/

set_option autoImplicit false

namespace PixelFont.Text

/-- Whether a text, if it is not empty, begins with no white space. -/
def BeginsSolid (text : List Char) : Prop :=
  ∀ c ∈ text.head?, isSpace c = false

/-- Whether a text, if it is not empty, ends with no white space. -/
def EndsSolid (text : List Char) : Prop :=
  ∀ c ∈ text.getLast?, isSpace c = false

theorem endsSolid_iff_reverse {text : List Char} :
    EndsSolid text ↔ BeginsSolid text.reverse := by
  rw [EndsSolid, BeginsSolid, List.head?_reverse]

theorem endsSolid_of_forall {text : List Char} (htext : ∀ c ∈ text, isSpace c = false) :
    EndsSolid text :=
  fun c hc ↦ htext c (List.mem_of_getLast? hc)

/-- What stands before a text that is not empty does not change how it ends. -/
theorem endsSolid_append_iff (front : List Char) {text : List Char} (hne : text ≠ []) :
    EndsSolid (front ++ text) ↔ EndsSolid text := by
  unfold EndsSolid
  rw [List.getLast?_append_of_ne_nil front hne]

/-! ### Letters and digits -/

theorem bounds_of_isAlphanum {c : Char} (hc : c.isAlphanum = true) :
    0x30 ≤ c.toNat ∧ c.toNat ≤ 0x7A := by
  change ((decide (c.val ≥ 65 ∧ c.val ≤ 90) ||
    (decide (c.val ≥ 97) && decide (c.val ≤ 122))) ||
    (decide (c.val ≥ 48) && decide (c.val ≤ 57))) = true at hc
  simp only [Bool.or_eq_true, Bool.and_eq_true, decide_eq_true_eq, ge_iff_le,
    UInt32.le_iff_toNat_le] at hc
  change ((65 ≤ c.toNat ∧ c.toNat ≤ 90) ∨ (97 ≤ c.toNat ∧ c.toNat ≤ 122)) ∨
    (48 ≤ c.toNat ∧ c.toNat ≤ 57) at hc
  omega

/-- A letter or digit is no white space. -/
theorem isSpace_of_isAlphanum {c : Char} (hc : c.isAlphanum = true) : isSpace c = false := by
  obtain ⟨hleast, hmost⟩ := bounds_of_isAlphanum hc
  simp only [isSpace, Bool.or_eq_false_iff, Bool.and_eq_false_iff, decide_eq_false_iff_not,
    beq_eq_false_iff_ne]
  omega

/-! ### Trimming -/

theorem trimStart_eq_self_iff {text : List Char} : trimStart text = text ↔ BeginsSolid text := by
  cases text with
  | nil => simp [trimStart, BeginsSolid]
  | cons c rest =>
    cases hc : isSpace c with
    | false => simp [trimStart, BeginsSolid, hc]
    | true =>
      have hshort : (trimStart (c :: rest)).length ≤ rest.length := by
        rw [trimStart, List.dropWhile_cons_of_pos hc]
        exact (List.dropWhile_sublist _).length_le
      refine iff_of_false (fun hsame ↦ ?_) (by simp [BeginsSolid, hc])
      rw [hsame, List.length_cons] at hshort
      exact Nat.not_succ_le_self _ hshort

theorem trimEnd_eq_self_iff {text : List Char} : trimEnd text = text ↔ EndsSolid text := by
  rw [endsSolid_iff_reverse, ← trimStart_eq_self_iff, trimEnd, ← trimStart,
    List.reverse_eq_iff]

/-- Trimming leaves a text as it is exactly if it begins and ends solid. -/
theorem trim_eq_self_iff {text : List Char} :
    trim text = text ↔ BeginsSolid text ∧ EndsSolid text := by
  rw [← trimStart_eq_self_iff, ← trimEnd_eq_self_iff]
  constructor
  · intro hsame
    have hstart : (trimStart text).length ≤ text.length := (List.dropWhile_sublist _).length_le
    have hend : (trimEnd (trimStart text)).length ≤ (trimStart text).length := by
      rw [trimEnd, List.length_reverse]
      exact (List.dropWhile_sublist _).length_le.trans (Nat.le_of_eq List.length_reverse)
    have hlength : text.length ≤ (trimStart text).length := by
      rw [trim] at hsame
      rwa [hsame] at hend
    have hself : trimStart text = text := (List.dropWhile_sublist _).eq_of_length_le hlength
    rw [trim, hself] at hsame
    exact ⟨hself, hsame⟩
  · rintro ⟨hstart, hend⟩
    rw [trim, hstart, hend]

/-- Trimming takes white space off the end. -/
theorem exists_trimEnd_append (text : List Char) :
    ∃ space, text = trimEnd text ++ space ∧ ∀ c ∈ space, isSpace c = true := by
  refine ⟨(text.reverse.takeWhile isSpace).reverse, ?_, fun c hc ↦ ?_⟩
  · rw [trimEnd, ← List.reverse_append, List.takeWhile_append_dropWhile, List.reverse_reverse]
  · exact List.mem_takeWhile_imp (List.mem_reverse.mp hc)

theorem beginsSolid_trimStart (text : List Char) : BeginsSolid (trimStart text) := by
  intro c hc
  have hhead := List.head?_dropWhile_not isSpace text
  rw [← trimStart, Option.mem_def.mp hc] at hhead
  exact hhead

theorem endsSolid_trimEnd (text : List Char) : EndsSolid (trimEnd text) := by
  rw [endsSolid_iff_reverse, trimEnd, List.reverse_reverse]
  exact beginsSolid_trimStart text.reverse

/-- What begins solid does so after trimming at the end. -/
theorem beginsSolid_of_append {text rest : List Char} (hwhole : BeginsSolid (text ++ rest)) :
    BeginsSolid text := by
  cases text with
  | nil => exact fun c hc ↦ absurd hc nofun
  | cons c text => exact hwhole

theorem trim_trim (text : List Char) : trim (trim text) = trim text := by
  rw [trim_eq_self_iff]
  obtain ⟨space, hsplit, -⟩ := exists_trimEnd_append (trimStart text)
  exact ⟨beginsSolid_of_append (hsplit ▸ beginsSolid_trimStart text), endsSolid_trimEnd _⟩

theorem mem_of_mem_trim {text : List Char} {c : Char} (hc : c ∈ trim text) : c ∈ text := by
  obtain ⟨space, hsplit, -⟩ := exists_trimEnd_append (trimStart text)
  have hstart : c ∈ trimStart text := by
    rw [hsplit]
    exact List.mem_append_left space hc
  exact List.dropWhile_subset isSpace hstart

/-- White space behind a text that ends solid is all that trimming takes off its end. -/
theorem trimEnd_append_of_forall {text space : List Char} (htext : EndsSolid text)
    (hspace : ∀ c ∈ space, isSpace c = true) : trimEnd (text ++ space) = text := by
  rw [trimEnd, List.reverse_append,
    List.dropWhile_append_of_pos fun c hc ↦ hspace c (List.mem_reverse.mp hc)]
  exact trimEnd_eq_self_iff.mpr htext

/-- What stands before a text and ends solid is not reached from the end of the text. -/
theorem trimEnd_append {front : List Char} (hfront : EndsSolid front) (text : List Char) :
    trimEnd (front ++ text) = front ++ trimEnd text := by
  obtain ⟨space, hsplit, hspace⟩ := exists_trimEnd_append text
  have hends : EndsSolid (front ++ trimEnd text) := by
    by_cases hnil : trimEnd text = []
    · rwa [hnil, List.append_nil]
    · exact (endsSolid_append_iff front hnil).mpr (endsSolid_trimEnd text)
  calc
    trimEnd (front ++ text) = trimEnd (front ++ trimEnd text ++ space) := by
      rw [List.append_assoc, ← hsplit]
    _ = front ++ trimEnd text := trimEnd_append_of_forall hends hspace

theorem trimStart_cons_of_isSpace {c : Char} (hc : isSpace c = true) (text : List Char) :
    trimStart (c :: text) = trimStart text :=
  List.dropWhile_cons_of_pos hc

theorem trimStart_ne_nil {text : List Char} (hne : text ≠ []) (htext : EndsSolid text) :
    trimStart text ≠ [] := by
  intro hnil
  have hlast := htext _ (List.getLast?_eq_some_getLast hne)
  rw [List.dropWhile_eq_nil_iff.mp hnil _ (List.getLast_mem hne)] at hlast
  exact Bool.noConfusion hlast

/-- What follows a text that is not empty and ends solid is not reached from its start. -/
theorem trimStart_append {text : List Char} (hne : text ≠ []) (htext : EndsSolid text)
    (suffix : List Char) : trimStart (text ++ suffix) = trimStart text ++ suffix := by
  rw [trimStart, List.dropWhile_append]
  split
  · rename_i hnil
    exact absurd (List.isEmpty_iff.mp hnil) (trimStart_ne_nil hne htext)
  · rfl

/-! ### Words -/

/-- White space separates the words before it from those behind it. -/
theorem words_append_cons {c : Char} (hc : isSpace c = true) (front rest : List Char) :
    words (front ++ c :: rest) = words front ++ words rest := by
  unfold words
  rw [List.splitOnP_append_cons front rest hc, List.filter_append]

theorem words_cons_of_isSpace {c : Char} (hc : isSpace c = true) (text : List Char) :
    words (c :: text) = words text :=
  words_append_cons hc [] text

/-- A text has no words exactly if it is all white space. -/
theorem words_eq_nil_iff {text : List Char} :
    words text = [] ↔ ∀ c ∈ text, isSpace c = true := by
  induction text with
  | nil => exact iff_of_true rfl fun c hc ↦ absurd hc List.not_mem_nil
  | cons c text ih =>
    rw [List.forall_mem_cons]
    cases hc : isSpace c with
    | true => rw [words_cons_of_isSpace hc, ih, eq_self, true_and]
    | false =>
      refine iff_of_false (fun hnil ↦ ?_) fun hspace ↦ Bool.false_ne_true hspace.1
      rw [words, List.splitOnP_cons_eq_if_modifyHead, if_neg (by simp [hc])] at hnil
      cases hpieces : text.splitOnP isSpace with
      | nil => exact List.splitOnP_ne_nil _ _ hpieces
      | cons piece pieces => simp [hpieces] at hnil

/-- White space at the end of a text changes no word. -/
theorem words_trimEnd (text : List Char) : words (trimEnd text) = words text := by
  obtain ⟨space, hsplit, hspace⟩ := exists_trimEnd_append text
  cases space with
  | nil => rw [← List.append_nil (trimEnd text), ← hsplit]
  | cons c space =>
    rw [List.forall_mem_cons] at hspace
    conv_rhs => rw [hsplit]
    rw [words_append_cons hspace.1, words_eq_nil_iff.mpr hspace.2, List.append_nil]

/-- The words of a text are not empty and hold no white space. -/
theorem solid_of_mem_words {text word : List Char} (hword : word ∈ words text) :
    word ≠ [] ∧ ∀ c ∈ word, isSpace c = false := by
  rw [words, List.mem_filter, Bool.not_eq_true', List.isEmpty_eq_false_iff] at hword
  exact ⟨hword.2, forall_mem_splitOnP word hword.1⟩

theorem words_eq_singleton {text : List Char} (hne : text ≠ [])
    (htext : ∀ c ∈ text, isSpace c = false) : words text = [text] := by
  rw [words, List.splitOnP_eq_singleton htext]
  simp [hne]

/-- Words joined by single spaces are found again. -/
theorem words_intercalate {labels : List (List Char)}
    (hlabels : ∀ label ∈ labels, label ≠ [] ∧ ∀ c ∈ label, isSpace c = false) :
    words ([' '].intercalate labels) = labels := by
  induction labels with
  | nil => rfl
  | cons label labels ih =>
    rw [List.forall_mem_cons] at hlabels
    obtain ⟨⟨hne, hsolid⟩, hothers⟩ := hlabels
    cases labels with
    | nil => rw [List.intercalate_singleton, words_eq_singleton hne hsolid]
    | cons other labels =>
      rw [List.intercalate_cons_cons, List.append_assoc, List.singleton_append,
        words_append_cons rfl, words_eq_singleton hne hsolid, ih hothers]
      rfl

/-- Words joined by single spaces are not empty and end solid. -/
theorem endsSolid_intercalate {labels : List (List Char)} (hne : labels ≠ [])
    (hlabels : ∀ label ∈ labels, label ≠ [] ∧ ∀ c ∈ label, isSpace c = false) :
    [' '].intercalate labels ≠ [] ∧ EndsSolid ([' '].intercalate labels) := by
  induction labels with
  | nil => exact absurd rfl hne
  | cons label labels ih =>
    rw [List.forall_mem_cons] at hlabels
    obtain ⟨⟨hlabel, hsolid⟩, hothers⟩ := hlabels
    cases labels with
    | nil =>
      rw [List.intercalate_singleton]
      exact ⟨hlabel, endsSolid_of_forall hsolid⟩
    | cons other labels =>
      obtain ⟨hrest, hends⟩ := ih (List.cons_ne_nil other labels) hothers
      rw [List.intercalate_cons_cons]
      exact ⟨List.append_ne_nil_of_right_ne_nil _ hrest, (endsSolid_append_iff _ hrest).mpr hends⟩

end PixelFont.Text
