import PixelFont.Proofs.GlyphFile.Canonical

/-!
Reading a glyph from its canonical text. Each header line is read as the field that it was written
for, so that an encoded glyph, an unencoded one whose label ends in no mark, and a ligature without
a codepoint come back with all that was written of them. Main statement: `parse_fileText`.
-/

set_option autoImplicit false

namespace PixelFont

open Text

namespace HeaderField

/-! ### Single lines -/

/-- A label alone is read for its mark only. -/
theorem ofLine_label {label : String} (hlabel : IsHeaderLabel label) :
    ofLine (commentMark :: ' ' :: label.toList) = .ok (labelOf label.toList) := by
  rw [ofLine, content_commented hlabel.trim_eq]
  exact ofContent_eq_labelOf hlabel.toList_ne_nil hlabel.no_weight hlabel.no_components

/-- A label with something in parentheses behind it is read for its mark only. -/
theorem ofLine_label_append {label : String} (hlabel : IsHeaderLabel label) {inner : List Char} :
    ofLine (commentMark :: ' ' :: (label.toList ++ ' ' :: '(' :: (inner ++ [')']))) =
      .ok (labelOf (label.toList ++ ' ' :: '(' :: (inner ++ [')']))) := by
  have hweight : ' ' ∉ weightKeyword := by decide
  have hcomponents : ' ' ∉ componentsKeyword := by decide
  have hbegins : BeginsSolid (label.toList ++ ' ' :: '(' :: (inner ++ [')'])) := by
    unfold BeginsSolid
    rw [List.head?_append_of_ne_nil _ hlabel.toList_ne_nil]
    exact hlabel.beginsSolid
  have hends : EndsSolid (label.toList ++ ' ' :: '(' :: (inner ++ [')'])) :=
    Glyph.endsSolid_parenthesis label.toList inner
  rw [ofLine, content_commented (trim_eq_self_iff.mpr ⟨hbegins, hends⟩)]
  exact ofContent_eq_labelOf (List.append_ne_nil_of_left_ne_nil hlabel.toList_ne_nil _)
    (not_startsField_append hweight hlabel.endsSolid hlabel.no_weight)
    (not_startsField_append hcomponents hlabel.endsSolid hlabel.no_components)

theorem ofLine_weight :
    ofLine ("# weight: " ++ Weight.bold.name).toList = .ok (.weight .bold) := by
  decide +kernel

/-- The line of the components is read as the components. -/
theorem ofLine_components {labels : List String} (hlabels : AreWords labels) :
    ofLine ("# components: " ++ " ".intercalate labels).toList = .ok (.components labels) := by
  have hbegins : BeginsSolid (Glyph.componentsText labels) := by
    intro c hc
    obtain rfl : 'c' = c := Option.some.inj hc
    rfl
  have htrim : trim (Glyph.componentsText labels) = Glyph.componentsText labels :=
    trim_eq_self_iff.mpr ⟨hbegins, (Glyph.isLine_componentsText hlabels).2⟩
  have hweight : weightValue? (Glyph.componentsText labels) = none := rfl
  have hvalue : componentsValue? (Glyph.componentsText labels) =
      some (' ' :: [' '].intercalate (labels.map String.toList)) := by
    have hfield : fieldValue? componentsKeyword (Glyph.componentsText labels) =
        some (' ' :: [' '].intercalate (labels.map String.toList)) := rfl
    rw [componentsValue?, hfield, Option.bind_some, if_neg]
    simpa using hlabels.isLine_joined.1
  have hwords : words (' ' :: [' '].intercalate (labels.map String.toList)) =
      labels.map String.toList := by
    rw [words_cons_of_isSpace rfl, words_intercalate hlabels.toList_mem]
  have hback : (labels.map String.toList).map String.ofList = labels := by
    simp
  rw [Glyph.toList_componentsLine, ofLine, content_commented htrim, ofContent,
    if_neg (by simp [Glyph.componentsText]), hweight, hvalue]
  dsimp only
  rw [hwords]
  cases labels with
  | nil => exact absurd rfl hlabels.1
  | cons label labels => exact congrArg (fun labels ↦ Except.ok (components labels)) hback

end HeaderField

namespace Glyph

/-- Whether the header tells what a glyph is: an encoded glyph by a codepoint of at most six
digits; an unencoded one by a label that ends in no mark; a ligature without a codepoint by its
mark, its components, if it declares any, being words. -/
inductive IsTold (glyph : Glyph) : Prop where
  | encoded (codepoint : Int) (hkind : glyph.kind = .standalone)
      (hcomponents : glyph.components = none) (hcodepoint : glyph.codepoint = some codepoint)
      (hleast : 0 ≤ codepoint) (hmost : codepoint ≤ 0xFFFFFF)
  | unencoded (hkind : glyph.kind = .standalone) (hcomponents : glyph.components = none)
      (hcodepoint : glyph.codepoint = none)
      (hnumeral : ¬ HeaderField.EndsInCodepoint glyph.label.toList)
      (hmark : ¬ HeaderField.EndsInLigature glyph.label.toList)
  | ligature (hkind : glyph.kind = .ligature) (hcodepoint : glyph.codepoint = none)
      (hcomponents : ∀ labels ∈ glyph.components, AreWords labels)

/-- The mark that stands behind the label of a glyph. -/
def labelMark (glyph : Glyph) : LabelMark :=
  match glyph.isLigature, glyph.codepoint with
  | true, _ => .ligature
  | false, some codepoint => .codepoint codepoint.toNat
  | false, none => .none

/-- The weight that the header of a glyph gives. -/
def writtenWeight (glyph : Glyph) : Option Weight :=
  if glyph.weight = .regular then none else some glyph.weight

/-- The fields that the header of a glyph gives. -/
def headerFields (glyph : Glyph) : HeaderFields where
  label := some (glyph.label, glyph.labelMark)
  weight := glyph.writtenWeight
  components := glyph.components

variable {glyph : Glyph}

namespace IsTold

theorem codepoint_nonneg (htold : glyph.IsTold) :
    ∀ codepoint ∈ glyph.codepoint, 0 ≤ codepoint := by
  intro codepoint hmem
  cases htold with
  | encoded found hkind hcomponents hcodepoint hleast hmost =>
    obtain rfl : found = codepoint := Option.some.inj (hcodepoint.symm.trans hmem)
    exact hleast
  | unencoded hkind hcomponents hcodepoint hnumeral hmark =>
    exact absurd (hcodepoint.symm.trans hmem) (by simp)
  | ligature hkind hcodepoint hcomponents =>
    exact absurd (hcodepoint.symm.trans hmem) (by simp)

theorem map_codepoint (htold : glyph.IsTold) :
    (glyph.codepoint.map Int.toNat).map Int.ofNat = glyph.codepoint := by
  rw [Option.map_map]
  refine (Option.map_congr fun codepoint hmem ↦ ?_).trans Option.map_id'
  exact Int.toNat_of_nonneg (htold.codepoint_nonneg codepoint hmem)

theorem areWords (htold : glyph.IsTold) : ∀ labels ∈ glyph.components, AreWords labels := by
  intro labels hmem
  cases htold with
  | encoded codepoint hkind hcomponents hcodepoint hleast hmost =>
    exact absurd (hcomponents.symm.trans hmem) (by simp)
  | unencoded hkind hcomponents hcodepoint hnumeral hmark =>
    exact absurd (hcomponents.symm.trans hmem) (by simp)
  | ligature hkind hcodepoint hcomponents => exact hcomponents labels hmem

end IsTold

/-! ### Header -/

/-- Behind the label of an unencoded glyph stands nothing. -/
theorem labelText_unencoded (hkind : glyph.kind = .standalone)
    (hcodepoint : glyph.codepoint = none) :
    glyph.labelText = HeaderField.commentMark :: ' ' :: glyph.label.toList := by
  have hsuffix : glyph.labelSuffix.toList = [] := by
    rw [labelSuffix, isLigature_eq_false_iff.mpr hkind, hcodepoint]
    rfl
  rw [labelText, hsuffix, List.append_nil]

/-- The line of the label of a ligature is read as the label with the mark of a ligature. -/
theorem ofLine_labelText_of_isLigature (hlabel : IsHeaderLabel glyph.label)
    (hkind : glyph.kind = .ligature) :
    HeaderField.ofLine glyph.labelText = .ok (.label glyph.label .ligature) := by
  have hsuffix : glyph.labelSuffix.toList = ' ' :: '(' :: ("ligature".toList ++ [')']) := by
    rw [labelSuffix, isLigature_eq_true_iff.mpr hkind]
    dsimp only
    rfl
  have hread := HeaderField.labelOf_ligature hlabel.toList_ne_nil hlabel.endsSolid hlabel.one_line
  rw [String.ofList_toList] at hread
  rw [labelText, hsuffix, HeaderField.ofLine_label_append hlabel, ← hread]
  rfl

/-- The line of the label is read as the label with its mark. -/
theorem ofLine_labelText (hlabel : IsHeaderLabel glyph.label) (htold : glyph.IsTold) :
    HeaderField.ofLine glyph.labelText = .ok (.label glyph.label glyph.labelMark) := by
  have hname : String.ofList glyph.label.toList = glyph.label := String.ofList_toList
  cases htold with
  | encoded codepoint hkind hcomponents hcodepoint hleast hmost =>
    obtain ⟨number, rfl⟩ := Int.eq_ofNat_of_zero_le hleast
    have hsuffix : glyph.labelSuffix.toList =
        ' ' :: '(' :: ('U' :: '+' :: (Hexadecimal.padded 4 number).toList ++ [')']) := by
      rw [labelSuffix, isLigature_eq_false_iff.mpr hkind, hcodepoint]
      dsimp only
      rw [String.toList_append, String.toList_append]
      rfl
    have hmark : glyph.labelMark = .codepoint number := by
      rw [labelMark, isLigature_eq_false_iff.mpr hkind, hcodepoint]
      rfl
    have hread := HeaderField.labelOf_codepoint hlabel.toList_ne_nil hlabel.endsSolid
      hlabel.one_line (fun c hc ↦ (Hexadecimal.isCapital_of_mem_padded hc).isDigit)
      (Hexadecimal.le_length_padded 4 number)
      (Hexadecimal.length_padded_le 5 (by decide) (by omega))
    rw [Hexadecimal.value_padded, hname] at hread
    rw [labelText, hsuffix, HeaderField.ofLine_label_append hlabel, hmark, ← hread]
    simp
  | unencoded hkind hcomponents hcodepoint hnumeral hmark =>
    have hnone : glyph.labelMark = .none := by
      rw [labelMark, isLigature_eq_false_iff.mpr hkind, hcodepoint]
    rw [labelText_unencoded hkind hcodepoint, HeaderField.ofLine_label hlabel,
      HeaderField.labelOf_unmarked hnumeral hmark, hname, hnone]
  | ligature hkind hcodepoint hcomponents =>
    have hmark : glyph.labelMark = .ligature := by
      rw [labelMark, isLigature_eq_true_iff.mpr hkind]
    rw [ofLine_labelText_of_isLigature hlabel hkind, hmark]

theorem addLines_weightLines {fields : HeaderFields} (hfields : fields.weight = none)
    (lines : List (List Char)) :
    fields.addLines (glyph.weightLines.map String.toList ++ lines) =
      { fields with weight := glyph.writtenWeight }.addLines lines := by
  unfold weightLines writtenWeight
  cases glyph.weight with
  | regular =>
    rw [if_pos rfl, ← hfields]
    rfl
  | bold =>
    exact HeaderFields.addLines_cons HeaderField.ofLine_weight
      (by rw [HeaderFields.add, hfields]; rfl)

theorem addLines_componentsLines {fields : HeaderFields} (hfields : fields.components = none)
    (hcomponents : ∀ labels ∈ glyph.components, AreWords labels) :
    fields.addLines (glyph.componentsLines.map String.toList) =
      .ok { fields with components := glyph.components } := by
  cases hsome : glyph.components with
  | none =>
    rw [componentsLines_of_none hsome, ← hfields]
    rfl
  | some labels =>
    have hwords : AreWords labels := hcomponents labels hsome
    rw [componentsLines_of_some hsome hwords.1, List.map_singleton]
    exact HeaderFields.addLines_cons (HeaderField.ofLine_components hwords)
      (by rw [HeaderFields.add, hfields]; rfl)

/-- The header lines are read as what that of the label is read as and the fields that the others
were written for. -/
theorem ofLines_headerLines_of_ofLine {label : String} {mark : LabelMark}
    (hline : HeaderField.ofLine glyph.labelText = .ok (.label label mark))
    (hcomponents : ∀ labels ∈ glyph.components, AreWords labels) :
    HeaderFields.ofLines (glyph.headerLines.map String.toList) =
      .ok ⟨some (label, mark), glyph.writtenWeight, glyph.components⟩ := by
  rw [headerLines, List.map_cons, List.map_append, toList_labelLine, HeaderFields.ofLines,
    HeaderFields.addLines_cons hline rfl, addLines_weightLines rfl,
    addLines_componentsLines rfl hcomponents]

/-- The header lines are read as the fields that they were written for. -/
theorem ofLines_headerLines (hlabel : IsHeaderLabel glyph.label) (htold : glyph.IsTold) :
    HeaderFields.ofLines (glyph.headerLines.map String.toList) = .ok glyph.headerFields :=
  ofLines_headerLines_of_ofLine (ofLine_labelText hlabel htold) htold.areWords

theorem getD_writtenWeight (glyph : Glyph) :
    glyph.writtenWeight.getD .regular = glyph.weight := by
  unfold writtenWeight
  cases glyph.weight <;> rfl

theorem labelMark_eq_ligature_iff : glyph.labelMark = .ligature ↔ glyph.isLigature = true := by
  unfold labelMark
  cases glyph.isLigature <;> cases glyph.codepoint <;> simp

/-- The fields are those of a ligature exactly if the glyph is one. -/
theorem isLigature_headerFields (htold : glyph.IsTold) :
    glyph.headerFields.isLigature = glyph.isLigature := by
  have hmark : ((some glyph.labelMark : Option LabelMark) == some .ligature) =
      glyph.isLigature := by
    rw [Bool.eq_iff_iff, beq_iff_eq, Option.some.injEq, labelMark_eq_ligature_iff]
  have hcomponents : glyph.components.isSome = true → glyph.isLigature = true := by
    intro hsome
    cases htold with
    | encoded codepoint hkind hcomponents hcodepoint hleast hmost => simp [hcomponents] at hsome
    | unencoded hkind hcomponents hcodepoint hnumeral hmark => simp [hcomponents] at hsome
    | ligature hkind hcodepoint hcomponents => exact isLigature_eq_true_iff.mpr hkind
  show (glyph.components.isSome || (some glyph.labelMark == some LabelMark.ligature)) = _
  rw [hmark, Bool.or_eq_right_iff_imp]
  exact hcomponents

/-- The codepoint is found with the label, or there is none, unless the name of a file tells one. -/
theorem codepointOf_headerFields (htold : glyph.IsTold) {stem : List Char}
    (hstem : glyph.kind = .standalone → glyph.codepoint = none →
      GlyphFile.codepoint? stem = none) :
    Header.codepointOf glyph.headerFields stem = glyph.codepoint.map Int.toNat := by
  have hlabel : glyph.headerFields.label = some (glyph.label, glyph.labelMark) := rfl
  rw [Header.codepointOf, isLigature_headerFields htold, hlabel, labelMark]
  cases htold with
  | encoded codepoint hkind hcomponents hcodepoint hleast hmost =>
    rw [isLigature_eq_false_iff.mpr hkind, hcodepoint]
    rfl
  | unencoded hkind hcomponents hcodepoint hnumeral hmark =>
    rw [isLigature_eq_false_iff.mpr hkind, hcodepoint]
    exact hstem hkind hcodepoint
  | ligature hkind hcodepoint hcomponents =>
    rw [isLigature_eq_true_iff.mpr hkind, hcodepoint]
    rfl

/-- The fields say again what the glyph is, unless the name of a file tells another codepoint. -/
theorem ofFields_headerFields_of_stem (htold : glyph.IsTold) {stem : List Char}
    (hstem : glyph.kind = .standalone → glyph.codepoint = none →
      GlyphFile.codepoint? stem = none) :
    Header.ofFields glyph.headerFields stem =
      .ok ⟨glyph.label, glyph.codepoint.map Int.toNat, glyph.weight, glyph.components,
        glyph.kind⟩ := by
  have hkind : (if glyph.isLigature then GlyphKind.ligature else .standalone) = glyph.kind := by
    unfold isLigature
    cases glyph.kind <;> rfl
  rw [Header.ofFields, codepointOf_headerFields htold hstem, isLigature_headerFields htold, hkind]
  show Except.ok _ = Except.ok _
  rw [← getD_writtenWeight glyph]
  rfl

theorem ofFields_headerFields (htold : glyph.IsTold) :
    Header.ofFields glyph.headerFields [] =
      .ok ⟨glyph.label, glyph.codepoint.map Int.toNat, glyph.weight, glyph.components,
        glyph.kind⟩ :=
  ofFields_headerFields_of_stem htold fun _ _ ↦ rfl

/-! ### Round trip -/

/-- The raster shows the grid that its rows were written from. -/
theorem grid_rowTexts (grid : Grid) : GlyphFile.grid (grid.rowTexts.map String.toList) = grid := by
  rw [GlyphFile.grid, Grid.rowTexts, List.map_map, List.map_map]
  exact (List.map_congr_left fun row _ ↦ Grid.ofRowText_rowText row).trans (List.map_id grid)

/-- A glyph whose label may stand in a header that tells what it is, and whose raster neither begins
nor ends with an empty row, is read from its canonical text as it was written: the raster text is
that of the grid, and the glyph has no source and is not derived. -/
theorem parse_fileText (hlabel : IsHeaderLabel glyph.label) (htold : glyph.IsTold)
    (hfirst : ∀ row ∈ glyph.grid.head?, row ≠ []) (hlast : ∀ row ∈ glyph.grid.getLast?, row ≠ []) :
    GlyphFile.parse glyph.fileText.toList none =
      .ok { glyph with rasterLines := glyph.grid.rowTexts, source := none, derived := false } := by
  have hsections := sections_fileText hlabel htold.codepoint_nonneg htold.areWords hfirst hlast
  have hheader : Header.ofLines (glyph.headerLines.map String.toList) none =
      .ok ⟨glyph.label, glyph.codepoint.map Int.toNat, glyph.weight, glyph.components,
        glyph.kind⟩ := by
    rw [Header.ofLines, ofLines_headerLines hlabel htold]
    exact ofFields_headerFields htold
  have hcodepoint : (glyph.codepoint.map Int.toNat).map Int.ofNat = glyph.codepoint := by
    rw [Option.map_map]
    refine (Option.map_congr fun codepoint hmem ↦ ?_).trans Option.map_id'
    exact Int.toNat_of_nonneg (htold.codepoint_nonneg codepoint hmem)
  have hraster : (glyph.grid.rowTexts.map String.toList).map String.ofList =
      glyph.grid.rowTexts := by
    simp
  unfold GlyphFile.parse
  rw [hsections]
  dsimp only
  rw [hheader]
  show Except.ok _ = Except.ok _
  rw [hcodepoint, hraster, grid_rowTexts]

/-- A bold ligature whose label looks like a header line with a codepoint and whose raster has an
empty row. -/
def bracketedLigature : Glyph where
  label := "# fi (U+0041)"
  codepoint := none
  grid := [[true], [], [false, true]]
  weight := .bold
  components := some ["f", "i"]
  kind := .ligature

theorem parse_fileText_bracketedLigature :
    IsHeaderLabel bracketedLigature.label ∧ bracketedLigature.IsTold ∧
      (∀ row ∈ bracketedLigature.grid.head?, row ≠ []) ∧
      (∀ row ∈ bracketedLigature.grid.getLast?, row ≠ []) ∧
      GlyphFile.parse bracketedLigature.fileText.toList none =
        .ok { bracketedLigature with rasterLines := ["X", "", ".X"] } := by
  have hlabel : IsHeaderLabel bracketedLigature.label :=
    { ne_empty := by decide
      trim_eq := by decide
      one_line := by decide
      no_weight := HeaderField.fieldValue?_eq_none_iff.mp (by decide)
      no_components := HeaderField.fieldValue?_eq_none_iff.mp (by decide) }
  have htold : bracketedLigature.IsTold := by
    refine .ligature rfl rfl fun labels hlabels ↦ ?_
    obtain rfl : ["f", "i"] = labels := Option.some.inj hlabels
    exact ⟨by decide, by simp [isSpace]⟩
  have hfirst : ∀ row ∈ bracketedLigature.grid.head?, row ≠ [] := by decide
  have hlast : ∀ row ∈ bracketedLigature.grid.getLast?, row ≠ [] := by decide
  exact ⟨hlabel, htold, hfirst, hlast, parse_fileText hlabel htold hfirst hlast⟩

end Glyph

end PixelFont
