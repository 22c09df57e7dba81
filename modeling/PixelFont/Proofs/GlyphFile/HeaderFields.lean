import Mathlib.Data.List.Perm.Basic
import PixelFont.Proofs.GlyphFile.LineForms
import PixelFont.Proofs.Traversal

/-!
What header lines give together. Of each line it is found what it gives of the weight, the
components or a label (`found?`), and of several lines it is gathered (`gathered`). One field joins
others only if it does not give the weight or the components again (`add_eq_ok_iff`), so that lines
join fields exactly if none is at fault and the weight and the components are gathered once at most;
of the labels the first counts (`addLines_eq_ok_iff`). What is joined does therefore not depend on
the order of the lines that give no label (`ofLines_eq_ok_iff_of_perm`).
-/

set_option autoImplicit false

namespace PixelFont

namespace HeaderField

/-! ### What single lines give -/

/-- The weight of a field that gives it. -/
def weight? : HeaderField → Option Weight
  | .weight given => some given
  | _ => none

/-- The components of a field that gives them. -/
def components? : HeaderField → Option (List String)
  | .components given => some given
  | _ => none

/-- The label of a field that gives one and what follows it. -/
def labelled? : HeaderField → Option (String × LabelMark)
  | .label given mark => some (given, mark)
  | _ => none

section Found

variable {α : Type}

/-- What a line gives of a kind. -/
def found? (select : HeaderField → Option α) (line : List Char) : Option α :=
  (ofLine line).toOption.bind select

/-- What lines give of a kind, in their order. -/
def gathered (select : HeaderField → Option α) (lines : List (List Char)) : List α :=
  lines.filterMap (found? select)

variable {select : HeaderField → Option α} {line : List Char} {content : α}

theorem found?_of_ofLine {field : HeaderField} (hfield : ofLine line = .ok field) :
    found? select line = select field := by
  rw [found?, hfield]
  rfl

theorem found?_eq_some_iff :
    found? select line = some content ↔
      ∃ field, Gives line field ∧ select field = some content := by
  simp only [found?, Option.bind_eq_some_iff, Traversal.toOption_eq_some_iff, ofLine_eq_ok_iff]

end Found

variable {line : List Char} {weight : Weight} {labels : List String} {label : String}
  {mark : LabelMark}

theorem found?_weight?_eq_some_iff :
    found? weight? line = some weight ↔
      ∃ value, IsWeightLine line value ∧ weight.IsNamedBy value := by
  rw [found?_eq_some_iff]
  constructor
  · rintro ⟨field, hgives, hweight⟩
    cases hgives with
    | @weight value named hline hnamed => exact ⟨value, hline, Option.some.inj hweight ▸ hnamed⟩
    | _ => exact absurd hweight nofun
  · rintro ⟨value, hline, hnamed⟩
    exact ⟨.weight weight, .weight hline hnamed, rfl⟩

theorem found?_components?_eq_some_iff :
    found? components? line = some labels ↔ IsComponentsLine line labels ∧ labels ≠ [] := by
  rw [found?_eq_some_iff]
  constructor
  · rintro ⟨field, hgives, hlabels⟩
    cases hgives with
    | components hline hne => exact Option.some.inj hlabels ▸ ⟨hline, hne⟩
    | _ => exact absurd hlabels nofun
  · rintro ⟨hline, hne⟩
    exact ⟨.components labels, .components hline hne, rfl⟩

theorem found?_labelled?_eq_some_iff :
    found? labelled? line = some (label, mark) ↔
      IsLabelLine line ∧ IsLabelOf (content line) label mark := by
  rw [found?_eq_some_iff]
  constructor
  · rintro ⟨field, hgives, hlabel⟩
    cases hgives with
    | label hline hof =>
      obtain ⟨rfl, rfl⟩ := Prod.mk.inj (Option.some.inj hlabel)
      exact ⟨hline, hof⟩
    | _ => exact absurd hlabel nofun
  · rintro ⟨hline, hof⟩
    exact ⟨.label label mark, .label hline hof, rfl⟩

theorem found?_labelled?_eq_none_iff : found? labelled? line = none ↔ ¬ IsLabelLine line := by
  constructor
  · intro hnone hline
    obtain ⟨label, mark, hlabel⟩ := exists_labelOf_eq (content line)
    rw [found?_labelled?_eq_some_iff.mpr ⟨hline, labelOf_eq_iff.mp hlabel⟩] at hnone
    exact absurd hnone nofun
  · intro hline
    refine Option.eq_none_iff_forall_ne_some.mpr fun ⟨found, mark⟩ hlabel ↦ ?_
    exact hline (found?_labelled?_eq_some_iff.mp hlabel).1

/-- A line that is not at fault is found to give the weight if it does. -/
theorem isSome_found?_weight?_iff (hfaulty : ¬ IsFaulty line) :
    (found? weight? line).isSome ↔ ∃ value, IsWeightLine line value := by
  simp only [Option.isSome_iff_exists, found?_weight?_eq_some_iff]
  constructor
  · rintro ⟨weight, value, hline, -⟩
    exact ⟨value, hline⟩
  · rintro ⟨value, hline⟩
    by_contra hnone
    refine hfaulty (.unknownWeight hline fun weight hnamed ↦ ?_)
    exact hnone ⟨weight, value, hline, hnamed⟩

theorem isSome_found?_components?_iff (hfaulty : ¬ IsFaulty line) :
    (found? components? line).isSome ↔ ∃ labels, IsComponentsLine line labels := by
  simp only [Option.isSome_iff_exists, found?_components?_eq_some_iff]
  refine exists_congr fun labels ↦ and_iff_left_of_imp fun hline hnil ↦ ?_
  exact hfaulty (.noComponents (hnil ▸ hline))

end HeaderField

namespace HeaderFields

open HeaderField

/-! ### Fields that may be given once -/

section Slots

variable {α : Type} {given joined : Option α} {item : α} {items others : List α}

theorem toList_inj : given.toList = joined.toList ↔ given = joined := by
  cases given <;> cases joined <;> simp

theorem toList_append_some_iff :
    given.toList ++ (some item).toList = joined.toList ↔ given = none ∧ some item = joined := by
  cases given <;> cases joined <;> simp

theorem exists_toList_iff : (∃ kept : Option α, items = kept.toList) ↔ items.length < 2 := by
  match items with
  | [] => exact iff_of_true ⟨none, rfl⟩ (by simp)
  | [item] => exact iff_of_true ⟨some item, rfl⟩ (by simp)
  | _ :: _ :: _ =>
    refine iff_of_false ?_ (by simp)
    rintro ⟨kept, hkept⟩
    cases kept <;> simp at hkept

/-- Of items of which there is at most one, there is at most one among the first. -/
theorem exists_toList_of_append (hone : items ++ others = joined.toList) :
    ∃ kept : Option α, items = kept.toList := by
  have hlength := exists_toList_iff.mp ⟨joined, hone⟩
  rw [List.length_append] at hlength
  exact exists_toList_iff.mpr (by omega)

/-- The order of items of which there is at most one does not matter. -/
theorem eq_toList_of_perm (horder : items.Perm others) (hone : others = joined.toList) :
    items = joined.toList := by
  subst hone
  cases joined with
  | none => exact horder.eq_nil
  | some item => exact List.perm_singleton.mp horder

end Slots

/-! ### What lines give together -/

theorem addLines_cons_eq_ok_iff {fields result : HeaderFields} {line : List Char}
    {lines : List (List Char)} :
    fields.addLines (line :: lines) = .ok result ↔
      ∃ field, HeaderField.ofLine line = .ok field ∧
        ∃ next, fields.add field = .ok next ∧ next.addLines lines = .ok result := by
  rw [addLines]
  simp only [Traversal.bind_eq_ok_iff]

theorem addLines_append_eq_ok_iff {fields result : HeaderFields} {lines others : List (List Char)} :
    fields.addLines (lines ++ others) = .ok result ↔
      ∃ next, fields.addLines lines = .ok next ∧ next.addLines others = .ok result := by
  induction lines generalizing fields with
  | nil => simp [addLines]
  | cons line lines ih =>
    simp only [List.cons_append, addLines_cons_eq_ok_iff, ih]
    grind

theorem exists_ofLine_of_mem {fields result : HeaderFields} {lines : List (List Char)}
    {line : List Char} (hresult : fields.addLines lines = .ok result) (hmem : line ∈ lines) :
    ∃ field, HeaderField.ofLine line = .ok field := by
  obtain ⟨front, back, rfl⟩ := List.append_of_mem hmem
  obtain ⟨before, -, hrest⟩ := addLines_append_eq_ok_iff.mp hresult
  obtain ⟨field, hfield, -⟩ := addLines_cons_eq_ok_iff.mp hrest
  exact ⟨field, hfield⟩

/-- One field joins others exactly if these do not yet give what it gives, a label apart. -/
theorem add_eq_ok_iff {fields next : HeaderFields} {field : HeaderField} :
    fields.add field = .ok next ↔
      fields.label.or field.labelled? = next.label ∧
      fields.weight.toList ++ field.weight?.toList = next.weight.toList ∧
      fields.components.toList ++ field.components?.toList = next.components.toList := by
  obtain ⟨label, weight, components⟩ := fields
  obtain ⟨nextLabel, nextWeight, nextComponents⟩ := next
  cases field with
  | blank => simp [add, weight?, components?, labelled?, toList_inj]
  | weight given =>
    simp only [weight?, components?, labelled?, toList_append_some_iff]
    cases weight <;> simp [add, toList_inj]
  | components given =>
    simp only [weight?, components?, labelled?, toList_append_some_iff]
    cases components <;> simp [add, toList_inj]
  | label given mark =>
    simp only [weight?, components?, labelled?]
    cases label <;> simp [add, toList_inj]

theorem gathered_cons_of_ofLine {α : Type} {select : HeaderField → Option α} {line : List Char}
    {field : HeaderField} (hfield : ofLine line = .ok field) (lines : List (List Char)) :
    gathered select (line :: lines) = (select field).toList ++ gathered select lines := by
  rw [gathered, gathered, List.filterMap_cons, found?_of_ofLine hfield]
  cases select field <;> rfl

/-- Lines join fields exactly if each is read and the weight and the components are given once at
most in all; of the labels the first counts. -/
theorem addLines_eq_ok_iff {fields result : HeaderFields} {lines : List (List Char)} :
    fields.addLines lines = .ok result ↔
      (∀ line ∈ lines, ¬ IsFaulty line) ∧
      fields.label.or (gathered labelled? lines).head? = result.label ∧
      fields.weight.toList ++ gathered weight? lines = result.weight.toList ∧
      fields.components.toList ++ gathered components? lines = result.components.toList := by
  induction lines generalizing fields with
  | nil =>
    obtain ⟨label, weight, components⟩ := fields
    obtain ⟨lastLabel, lastWeight, lastComponents⟩ := result
    simp [addLines, gathered, toList_inj]
  | cons line lines ih =>
    rw [addLines_cons_eq_ok_iff, List.forall_mem_cons]
    cases hfield : ofLine line with
    | error fault =>
      have hfaulty : IsFaulty line := exists_ofLine_eq_error_iff.mp ⟨fault, hfield⟩
      simp [hfaulty]
    | ok field =>
      have hread : ¬ IsFaulty line := by
        rw [← exists_ofLine_eq_error_iff, hfield]
        simp
      simp only [Except.ok.injEq, exists_eq_left', hread, not_false_eq_true, true_and,
        gathered_cons_of_ofLine hfield, ih, add_eq_ok_iff]
      constructor
      · rintro ⟨next, ⟨hlabel, hweight, hcomponents⟩, hlines, hlabels, hweights, hall⟩
        refine ⟨hlines, ?_, ?_, ?_⟩
        · rw [List.head?_append, Option.head?_toList, ← Option.or_assoc, hlabel, hlabels]
        · rw [← List.append_assoc, hweight, hweights]
        · rw [← List.append_assoc, hcomponents, hall]
      · rintro ⟨hlines, hlabels, hweights, hall⟩
        rw [List.head?_append, Option.head?_toList, ← Option.or_assoc] at hlabels
        rw [← List.append_assoc] at hweights hall
        obtain ⟨weight, hweight⟩ := exists_toList_of_append hweights
        obtain ⟨components, hcomponents⟩ := exists_toList_of_append hall
        exact ⟨⟨_, weight, components⟩, ⟨rfl, hweight, hcomponents⟩, hlines, hlabels,
          hweight ▸ hweights, hcomponents ▸ hall⟩

section Joined

variable {fields result : HeaderFields} {lines : List (List Char)}
  (hresult : fields.addLines lines = .ok result)
include hresult

/-- Without a label at the end there was none, and none has joined. -/
theorem label_eq_none_of_addLines (hnone : result.label = none) :
    fields.label = none ∧
      ∀ line ∈ lines, ∀ label mark, HeaderField.ofLine line ≠ .ok (.label label mark) := by
  have hlabel := (addLines_eq_ok_iff.mp hresult).2.1
  rw [hnone, Option.or_eq_none_iff, List.head?_eq_none_iff, gathered,
    List.filterMap_eq_nil_iff] at hlabel
  refine ⟨hlabel.1, fun line hmem label mark hline ↦ ?_⟩
  have hfound := hlabel.2 line hmem
  rw [found?_of_ofLine hline] at hfound
  exact absurd hfound nofun

/-- Components that are given stay and no others join. -/
theorem components_of_addLines {labels : List String} (hlabels : fields.components = some labels) :
    result.components = some labels ∧
      ∀ line ∈ lines, ∀ others, HeaderField.ofLine line ≠ .ok (.components others) := by
  have hall := (addLines_eq_ok_iff.mp hresult).2.2.2
  rw [hlabels, Option.toList_some, List.singleton_append] at hall
  have hone := exists_toList_iff.mp ⟨_, hall⟩
  rw [List.length_cons] at hone
  have hnil : gathered components? lines = [] := List.length_eq_zero_iff.mp (by omega)
  rw [hnil] at hall
  refine ⟨Option.toList_eq_singleton_iff.mp hall.symm, fun line hmem others hline ↦ ?_⟩
  have hfound := List.filterMap_eq_nil_iff.mp hnil line hmem
  rw [found?_of_ofLine hline] at hfound
  exact absurd hfound nofun

/-- The components of a line among others are the components of all. -/
theorem components_of_mem {line : List Char} {labels : List String} (hmem : line ∈ lines)
    (hline : HeaderField.ofLine line = .ok (.components labels)) :
    result.components = some labels := by
  rw [← Option.mem_toList, ← (addLines_eq_ok_iff.mp hresult).2.2.2]
  exact List.mem_append_right _ (List.mem_filterMap.mpr ⟨line, hmem, found?_of_ofLine hline⟩)

end Joined

variable {fields : HeaderFields} {lines others : List (List Char)}

theorem ofLines_eq_ok_iff :
    ofLines lines = .ok fields ↔
      (∀ line ∈ lines, ¬ IsFaulty line) ∧ (gathered labelled? lines).head? = fields.label ∧
        gathered weight? lines = fields.weight.toList ∧
        gathered components? lines = fields.components.toList := by
  simp [ofLines, addLines_eq_ok_iff]

/-- Only the order of the lines that give labels matters. -/
theorem ofLines_eq_ok_iff_of_perm (horder : others.Perm lines)
    (hlabels : others.filter (IsLabelLine ·) = lines.filter (IsLabelLine ·)) :
    ofLines others = .ok fields ↔ ofLines lines = .ok fields := by
  have hgathered (lines : List (List Char)) :
      gathered labelled? lines = gathered labelled? (lines.filter (IsLabelLine ·)) := by
    rw [gathered, gathered, List.filterMap_filter]
    refine List.filterMap_congr fun line _ ↦ ?_
    by_cases hline : IsLabelLine line
    · simp [hline]
    · simp [hline, found?_labelled?_eq_none_iff.mpr hline]
  have hweight := horder.filterMap (found? weight?)
  have hcomponents := horder.filterMap (found? components?)
  rw [ofLines_eq_ok_iff, ofLines_eq_ok_iff, hgathered others, hlabels, ← hgathered lines]
  simp only [horder.mem_iff]
  refine and_congr Iff.rfl (and_congr Iff.rfl (and_congr ?_ ?_))
  · exact ⟨eq_toList_of_perm hweight.symm, eq_toList_of_perm hweight⟩
  · exact ⟨eq_toList_of_perm hcomponents.symm, eq_toList_of_perm hcomponents⟩

end HeaderFields

end PixelFont
