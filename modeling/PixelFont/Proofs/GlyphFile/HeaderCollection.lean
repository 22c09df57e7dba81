import PixelFont.Proofs.GlyphFile.Acceptance
import PixelFont.Proofs.GlyphFile.Name
import PixelFont.Proofs.Grouping

/-!
Headers that header lines make. Lines are refused if one is at fault, if two give the weight or two
the components, or if neither a line nor the name of the file tells a label (`IsRefused`). The
header of other lines takes its label, weight, components, kind and codepoint each from the line
that gives them or from where they come otherwise (`IsCollected`). Both are stated on the forms of
the lines and of the stem. Main statement: `Header.ofLines_collects`; the order of the lines that
give no label does not matter.
-/

set_option autoImplicit false

namespace PixelFont

namespace Header

open HeaderField

/-! ### Headers -/

/-- Whether two of some lines have a property. -/
def IsRepeated (property : List Char → Prop) (lines : List (List Char)) : Prop :=
  ∃ first second, [first, second].Sublist lines ∧ property first ∧ property second

/-- Whether the first of some lines that gives a label gives this one, with what follows it. -/
def IsFirstLabel (lines : List (List Char)) (label : String) (mark : LabelMark) : Prop :=
  ∃ before line after, lines = before ++ line :: after ∧
    (∀ earlier ∈ before, ¬ IsLabelLine earlier) ∧ IsLabelLine line ∧
    IsLabelOf (content line) label mark

/-- Why header lines make no header, given the stem of the name of their file. -/
inductive IsRefused (lines : List (List Char)) (stem : List Char) : Prop where
  | unknownWeight {line value : List Char} (hmem : line ∈ lines) (hline : IsWeightLine line value)
      (hunknown : ∀ weight : Weight, ¬ weight.IsNamedBy value)
  | noComponents {line : List Char} (hmem : line ∈ lines) (hline : IsComponentsLine line [])
  | repeatedWeight (htwice : IsRepeated (fun line ↦ ∃ value, IsWeightLine line value) lines)
  | repeatedComponents
      (htwice : IsRepeated (fun line ↦ ∃ labels, IsComponentsLine line labels) lines)
  | noLabel (hnone : ∀ line ∈ lines, ¬ IsLabelLine line) (hempty : GlyphFile.IsStemLabel stem "")

/-- What a header says, given its lines and the stem of the name of their file. -/
structure IsCollected (lines : List (List Char)) (stem : List Char) (header : Header) : Prop where
  label : (∃ mark, IsFirstLabel lines header.label mark) ∨
    (∀ line ∈ lines, ¬ IsLabelLine line) ∧ GlyphFile.IsStemLabel stem header.label
  weight : (∃ line ∈ lines, ∃ value, IsWeightLine line value ∧ header.weight.IsNamedBy value) ∨
    (∀ line ∈ lines, ∀ value, ¬ IsWeightLine line value) ∧ header.weight = .regular
  components : (∃ line ∈ lines, ∃ labels, IsComponentsLine line labels ∧
      header.components = some labels) ∨
    (∀ line ∈ lines, ∀ labels, ¬ IsComponentsLine line labels) ∧ header.components = none
  kind : header.kind = .ligature ↔
    header.components ≠ none ∨ ∃ label, IsFirstLabel lines label .ligature
  codepoint : ∀ codepoint, header.codepoint = some codepoint ↔
    (∃ label, IsFirstLabel lines label (.codepoint codepoint)) ∨
      (∀ label other, ¬ IsFirstLabel lines label (.codepoint other)) ∧
        header.kind = .standalone ∧ GlyphFile.IsStemCodepoint stem codepoint

section Gathered

variable {lines : List (List Char)} {fields : HeaderFields}

/-- What lines give of a kind is gathered once at most exactly if no two lines give it. -/
theorem exists_gathered_eq_iff {α : Type} {select : HeaderField → Option α}
    {property : List Char → Prop}
    (hproperty : ∀ line ∈ lines, (found? select line).isSome ↔ property line) :
    (∃ given : Option α, gathered select lines = given.toList) ↔ ¬ IsRepeated property lines := by
  rw [HeaderFields.exists_toList_iff, Grouping.length_lt_two_iff, gathered,
    List.pairwise_filterMap, List.pairwise_iff_forall_sublist]
  constructor
  · rintro hapart ⟨first, second, hsub, hfirst, hsecond⟩
    have hmem := hsub.subset
    rw [← hproperty first (hmem (by simp))] at hfirst
    rw [← hproperty second (hmem (by simp))] at hsecond
    obtain ⟨one, hone⟩ := Option.isSome_iff_exists.mp hfirst
    obtain ⟨two, htwo⟩ := Option.isSome_iff_exists.mp hsecond
    exact hapart hsub one hone two htwo
  · intro hrepeated first second hsub one hone two htwo
    have hmem := hsub.subset
    refine hrepeated ⟨first, second, hsub, ?_, ?_⟩
    · exact (hproperty first (hmem (by simp))).mp (hone ▸ rfl)
    · exact (hproperty second (hmem (by simp))).mp (htwo ▸ rfl)

/-- Lines give fields exactly if none is at fault and the weight and the components are given once
at most. -/
theorem exists_ofLines_iff :
    (∃ fields, HeaderFields.ofLines lines = .ok fields) ↔
      (∀ line ∈ lines, ¬ IsFaulty line) ∧
        ¬ IsRepeated (fun line ↦ ∃ value, IsWeightLine line value) lines ∧
        ¬ IsRepeated (fun line ↦ ∃ labels, IsComponentsLine line labels) lines := by
  simp only [HeaderFields.ofLines_eq_ok_iff]
  have hweights (hread : ∀ line ∈ lines, ¬ IsFaulty line) :=
    exists_gathered_eq_iff fun line hmem ↦ isSome_found?_weight?_iff (hread line hmem)
  have hall (hread : ∀ line ∈ lines, ¬ IsFaulty line) :=
    exists_gathered_eq_iff fun line hmem ↦ isSome_found?_components?_iff (hread line hmem)
  constructor
  · rintro ⟨fields, hread, -, hweight, hcomponents⟩
    exact ⟨hread, (hweights hread).mp ⟨_, hweight⟩, (hall hread).mp ⟨_, hcomponents⟩⟩
  · rintro ⟨hread, honce, hsingle⟩
    obtain ⟨weight, hweight⟩ := (hweights hread).mpr honce
    obtain ⟨components, hcomponents⟩ := (hall hread).mpr hsingle
    exact ⟨⟨_, weight, components⟩, hread, rfl, hweight, hcomponents⟩

/-! ### The fields that some lines give -/

section OfLines

variable (hfields : HeaderFields.ofLines lines = .ok fields)
include hfields

theorem label_eq_some_iff {label : String} {mark : LabelMark} :
    fields.label = some (label, mark) ↔ IsFirstLabel lines label mark := by
  rw [← (HeaderFields.ofLines_eq_ok_iff.mp hfields).2.1, gathered, List.head?_filterMap,
    List.findSome?_eq_some_iff]
  simp only [found?_labelled?_eq_some_iff, found?_labelled?_eq_none_iff, IsFirstLabel]
  refine exists_congr fun before ↦ exists_congr fun line ↦ exists_congr fun after ↦ ?_
  exact and_congr Iff.rfl and_comm

theorem label_eq_none_iff : fields.label = none ↔ ∀ line ∈ lines, ¬ IsLabelLine line := by
  rw [← (HeaderFields.ofLines_eq_ok_iff.mp hfields).2.1, List.head?_eq_none_iff, gathered,
    List.filterMap_eq_nil_iff]
  simp only [found?_labelled?_eq_none_iff]

theorem weight_eq_some_iff {weight : Weight} :
    fields.weight = some weight ↔
      ∃ line ∈ lines, ∃ value, IsWeightLine line value ∧ weight.IsNamedBy value := by
  rw [← Option.mem_toList, ← (HeaderFields.ofLines_eq_ok_iff.mp hfields).2.2.1, gathered,
    List.mem_filterMap]
  simp only [found?_weight?_eq_some_iff]

theorem weight_eq_none_iff :
    fields.weight = none ↔ ∀ line ∈ lines, ∀ value, ¬ IsWeightLine line value := by
  obtain ⟨hread, -, hweight, -⟩ := HeaderFields.ofLines_eq_ok_iff.mp hfields
  rw [← Option.toList_eq_nil_iff, ← hweight, gathered, List.filterMap_eq_nil_iff]
  refine forall₂_congr fun line hmem ↦ ?_
  rw [← not_exists, ← isSome_found?_weight?_iff (hread line hmem), Option.not_isSome_iff_eq_none]

theorem components_eq_some_iff {labels : List String} :
    fields.components = some labels ↔ ∃ line ∈ lines, IsComponentsLine line labels := by
  obtain ⟨hread, -, -, hcomponents⟩ := HeaderFields.ofLines_eq_ok_iff.mp hfields
  rw [← Option.mem_toList, ← hcomponents, gathered, List.mem_filterMap]
  refine exists_congr fun line ↦ and_congr_right fun hmem ↦ ?_
  rw [found?_components?_eq_some_iff]
  refine and_iff_left_of_imp fun hline hnil ↦ ?_
  exact hread line hmem (.noComponents (hnil ▸ hline))

theorem components_eq_none_iff :
    fields.components = none ↔ ∀ line ∈ lines, ∀ labels, ¬ IsComponentsLine line labels := by
  obtain ⟨hread, -, -, hcomponents⟩ := HeaderFields.ofLines_eq_ok_iff.mp hfields
  rw [← Option.toList_eq_nil_iff, ← hcomponents, gathered, List.filterMap_eq_nil_iff]
  refine forall₂_congr fun line hmem ↦ ?_
  rw [← not_exists, ← isSome_found?_components?_iff (hread line hmem),
    Option.not_isSome_iff_eq_none]

theorem label_iff {stem : List Char} {label : String} :
    (fields.label.map Prod.fst).getD (GlyphFile.label stem) = label ↔
      (∃ mark, IsFirstLabel lines label mark) ∨
        (∀ line ∈ lines, ¬ IsLabelLine line) ∧ GlyphFile.IsStemLabel stem label := by
  rw [Option.getD_eq_iff, Option.map_eq_none_iff, Option.map_eq_some_iff,
    label_eq_none_iff hfields, GlyphFile.label_eq_iff]
  simp [label_eq_some_iff hfields]

theorem weight_iff {weight : Weight} :
    fields.weight.getD .regular = weight ↔
      (∃ line ∈ lines, ∃ value, IsWeightLine line value ∧ weight.IsNamedBy value) ∨
        (∀ line ∈ lines, ∀ value, ¬ IsWeightLine line value) ∧ weight = .regular := by
  rw [Option.getD_eq_iff, weight_eq_some_iff hfields, weight_eq_none_iff hfields,
    @eq_comm _ weight]

theorem components_iff {components : Option (List String)} :
    fields.components = components ↔
      (∃ line ∈ lines, ∃ labels, IsComponentsLine line labels ∧ components = some labels) ∨
        (∀ line ∈ lines, ∀ labels, ¬ IsComponentsLine line labels) ∧ components = none := by
  cases components with
  | none => simp [components_eq_none_iff hfields]
  | some labels => simp [components_eq_some_iff hfields]

theorem isLigature_iff :
    fields.isLigature = true ↔
      fields.components ≠ none ∨ ∃ label, IsFirstLabel lines label .ligature := by
  simp [HeaderFields.isLigature, Option.isSome_iff_ne_none, ← label_eq_some_iff hfields]

theorem markedCodepoint?_eq_some_iff {codepoint : ℕ} :
    markedCodepoint? fields.label = some codepoint ↔
      ∃ label, IsFirstLabel lines label (.codepoint codepoint) := by
  simp only [← label_eq_some_iff hfields]
  cases fields.label with
  | none => simp [markedCodepoint?]
  | some found =>
    obtain ⟨label, mark⟩ := found
    cases mark <;> simp [markedCodepoint?]

theorem codepointOf_eq_some_iff {stem : List Char} {codepoint : ℕ} :
    codepointOf fields stem = some codepoint ↔
      (∃ label, IsFirstLabel lines label (.codepoint codepoint)) ∨
        (∀ label other, ¬ IsFirstLabel lines label (.codepoint other)) ∧
          fields.isLigature = false ∧ GlyphFile.IsStemCodepoint stem codepoint := by
  have hnone : (∀ label other, ¬ IsFirstLabel lines label (.codepoint other)) ↔
      markedCodepoint? fields.label = none := by
    simp only [Option.eq_none_iff_forall_ne_some, ne_eq, markedCodepoint?_eq_some_iff hfields,
      not_exists]
    exact forall_comm
  rw [hnone, ← markedCodepoint?_eq_some_iff hfields, ← GlyphFile.codepoint?_eq_some_iff,
    codepointOf]
  cases markedCodepoint? fields.label with
  | none => cases fields.isLigature <;> simp
  | some marked => simp

/-- A header is collected from the lines exactly if it is made of the fields that they give. -/
theorem isCollected_iff {stem : List Char} {header : Header} :
    IsCollected lines stem header ↔ header = {
      label := (fields.label.map Prod.fst).getD (GlyphFile.label stem)
      codepoint := codepointOf fields stem
      weight := fields.weight.getD .regular
      components := fields.components
      kind := if fields.isLigature then .ligature else .standalone } := by
  constructor
  · intro hcollected
    have hcomponents := (components_iff hfields).mpr hcollected.components
    have hligature : header.kind = .ligature ↔ fields.isLigature = true := by
      rw [hcollected.kind, isLigature_iff hfields, hcomponents]
    have hkind : header.kind = if fields.isLigature then .ligature else .standalone := by
      cases hheader : header.kind <;> cases hfound : fields.isLigature <;> simp_all
    have hcodepoint : header.codepoint = codepointOf fields stem := by
      refine Option.ext fun codepoint ↦ ?_
      rw [hcollected.codepoint, codepointOf_eq_some_iff hfields, hkind]
      cases fields.isLigature <;> simp
    rw [(label_iff hfields).mpr hcollected.label, (weight_iff hfields).mpr hcollected.weight,
      hcomponents, ← hcodepoint, ← hkind]
  · rintro rfl
    refine ⟨(label_iff hfields).mp rfl, (weight_iff hfields).mp rfl,
      (components_iff hfields).mp rfl, ?_, fun codepoint ↦ ?_⟩
    · rw [← isLigature_iff hfields]
      cases fields.isLigature <;> simp
    · rw [codepointOf_eq_some_iff hfields]
      cases fields.isLigature <;> simp

end OfLines

variable {stem : List Char} {header : Header}

/-- Header lines are refused exactly if they give no fields, or none that make a header. -/
theorem isRefused_iff :
    IsRefused lines stem ↔ ¬ ∃ fields, HeaderFields.ofLines lines = .ok fields ∧
      ¬ (fields.label = none ∧ GlyphFile.label stem = "") := by
  constructor
  · rintro hrefused ⟨fields, hfields, hnamed⟩
    obtain ⟨hread, hweight, hcomponents⟩ := exists_ofLines_iff.mp ⟨fields, hfields⟩
    cases hrefused with
    | unknownWeight hmem hline hunknown => exact hread _ hmem (.unknownWeight hline hunknown)
    | noComponents hmem hline => exact hread _ hmem (.noComponents hline)
    | repeatedWeight htwice => exact hweight htwice
    | repeatedComponents htwice => exact hcomponents htwice
    | noLabel hnone hempty =>
      exact hnamed ⟨(label_eq_none_iff hfields).mpr hnone, GlyphFile.label_eq_iff.mpr hempty⟩
  · intro hfails
    by_contra hrefused
    have hread : ∀ line ∈ lines, ¬ IsFaulty line := by
      intro line hmem hfaulty
      cases hfaulty with
      | unknownWeight hline hunknown => exact hrefused (.unknownWeight hmem hline hunknown)
      | noComponents hline => exact hrefused (.noComponents hmem hline)
    obtain ⟨fields, hfields⟩ := exists_ofLines_iff.mpr
      ⟨hread, fun htwice ↦ hrefused (.repeatedWeight htwice),
        fun htwice ↦ hrefused (.repeatedComponents htwice)⟩
    refine hfails ⟨fields, hfields, fun ⟨hnone, hempty⟩ ↦ hrefused ?_⟩
    exact .noLabel ((label_eq_none_iff hfields).mp hnone) (GlyphFile.label_eq_iff.mp hempty)

theorem ofLines_eq_ok_iff {path : Option Path} :
    ofLines lines path = .ok header ↔
      ∃ fields, HeaderFields.ofLines lines = .ok fields ∧
        ofFields fields (stemOf path) = .ok header := by
  rw [ofLines, Traversal.bind_eq_ok_iff]

/-- Lines make the header that is collected from them unless they are refused. -/
theorem ofLines_eq_ok_iff_isCollected {path : Option Path} :
    ofLines lines path = .ok header ↔
      ¬ IsRefused lines (stemOf path) ∧ IsCollected lines (stemOf path) header := by
  rw [ofLines_eq_ok_iff, isRefused_iff, not_not]
  simp only [GlyphFile.ofFields_eq_ok_iff]
  constructor
  · rintro ⟨fields, hfields, hnamed, hheader⟩
    exact ⟨⟨fields, hfields, hnamed⟩, (isCollected_iff hfields).mpr hheader⟩
  · rintro ⟨⟨fields, hfields, hnamed⟩, hcollected⟩
    exact ⟨fields, hfields, hnamed, (isCollected_iff hfields).mp hcollected⟩

theorem exists_ofLines_eq_ok_iff {path : Option Path} :
    (∃ header, ofLines lines path = .ok header) ↔ ¬ IsRefused lines (stemOf path) := by
  simp only [ofLines_eq_ok_iff, isRefused_iff, not_not, GlyphFile.ofFields_eq_ok_iff]
  constructor
  · rintro ⟨header, fields, hfields, hnamed, -⟩
    exact ⟨fields, hfields, hnamed⟩
  · rintro ⟨fields, hfields, hnamed⟩
    exact ⟨_, fields, hfields, hnamed, rfl⟩

end Gathered

/-- Header lines make a header exactly if they are not refused, and it is the one that is collected
from them. The order of the lines that give no label matters to neither. -/
theorem ofLines_collects (lines : List (List Char)) (path : Option Path) :
    ((∃ fault, ofLines lines path = .error fault) ↔ IsRefused lines (stemOf path)) ∧
      (¬ IsRefused lines (stemOf path) → ∃ header, ofLines lines path = .ok header ∧
        ∀ other, IsCollected lines (stemOf path) other ↔ other = header) ∧
      ∀ others : List (List Char), others.Perm lines →
        others.filter (IsLabelLine ·) = lines.filter (IsLabelLine ·) →
        (ofLines others path).toOption = (ofLines lines path).toOption := by
  refine ⟨?_, fun hrefused ↦ ?_, fun others horder hlabels ↦ ?_⟩
  · rw [← not_iff_not, ← exists_ofLines_eq_ok_iff]
    cases ofLines lines path <;> simp
  · obtain ⟨header, hheader⟩ := exists_ofLines_eq_ok_iff.mpr hrefused
    refine ⟨header, hheader, fun other ↦ ?_⟩
    have hother : ofLines lines path = .ok other ↔ IsCollected lines (stemOf path) other :=
      ofLines_eq_ok_iff_isCollected.trans (and_iff_right hrefused)
    rw [← hother, hheader, Except.ok.injEq, eq_comm]
  · have hfields (fields : HeaderFields) :
        HeaderFields.ofLines others = .ok fields ↔ HeaderFields.ofLines lines = .ok fields :=
      HeaderFields.ofLines_eq_ok_iff_of_perm horder hlabels
    have hheader (header : Header) :
        ofLines others path = .ok header ↔ ofLines lines path = .ok header := by
      simp only [ofLines_eq_ok_iff, hfields]
    refine Option.ext fun header ↦ ?_
    rw [Traversal.toOption_eq_some_iff, Traversal.toOption_eq_some_iff, hheader]

/-- The weight may stand before the label or behind it, and the codepoint comes from the name. -/
theorem ofLines_collects_reordered :
    let lines := ["# Weight : BOLD".toList, "# A".toList, "#".toList, "# a note (ligature)".toList]
    let others := ["# A".toList, "# a note (ligature)".toList, "# Weight : BOLD".toList, "#".toList]
    let path := some (Path.ofString "U+0041_B.glyph")
    ¬ IsRefused lines (stemOf path) ∧ others.Perm lines ∧
      others.filter (IsLabelLine ·) = lines.filter (IsLabelLine ·) ∧
      (ofLines others path).toOption = (ofLines lines path).toOption ∧
      IsCollected lines (stemOf path) ⟨"A", some 0x41, .bold, none, .standalone⟩ := by
  intro lines others path
  have hheader : ofLines lines path = .ok ⟨"A", some 0x41, .bold, none, .standalone⟩ := rfl
  have horder : others.Perm lines := by decide
  have hlabels : others.filter (IsLabelLine ·) = lines.filter (IsLabelLine ·) := by decide
  obtain ⟨hfails, hmakes, hkeeps⟩ := ofLines_collects lines path
  have hread : ¬ IsRefused lines (stemOf path) := by
    rw [← hfails, hheader]
    exact fun ⟨_, hfault⟩ ↦ absurd hfault nofun
  obtain ⟨header, hsame, hcollected⟩ := hmakes hread
  exact ⟨hread, horder, hlabels, hkeeps others horder hlabels,
    (hcollected _).mpr (Except.ok.inj (hheader.symm.trans hsame))⟩

end Header

end PixelFont
