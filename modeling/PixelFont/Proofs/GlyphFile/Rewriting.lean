import PixelFont.Proofs.GlyphFile.Acceptance
import PixelFont.Proofs.GlyphFile.Name
import PixelFont.Proofs.GlyphFile.RoundTrip

/-!
Rewriting a glyph file: a glyph that was read is written in its canonical text, under its
conventional name, and read again. It is kept if what is read agrees with it. Where a header line
can give the label, the header tells what the glyph is, except that a ligature loses its codepoint,
and that the mark of an unencoded label or its name may tell a codepoint that the glyph does not
have. Where no header line can give the label, its lines must say nothing and the name of the file
tells it; a mark behind such a label never says nothing (`labelSuffix_eq_nil`). Main statement:
`isKept_iff_of_parse`.
-/

set_option autoImplicit false

namespace PixelFont

open Text

namespace HeaderField

/-! ### Lines that end in a parenthesis -/

theorem content_commentMark (rest : List Char) : content (commentMark :: rest) = trim rest := by
  have hmark : trimStart (commentMark :: rest) = commentMark :: rest :=
    trimStart_eq_self_iff.mpr (by simp [BeginsSolid, commentMark, isSpace])
  rw [content, hmark]
  rfl

/-- A text that ends in a closing parenthesis does so when it is trimmed. -/
theorem getLast?_trim {text : List Char} (hlast : text.getLast? = some ')') :
    (trim text).getLast? = some ')' := by
  have hends : EndsSolid text := fun c hc ↦ Option.some.inj (hlast.symm.trans hc) ▸ rfl
  have hne : text ≠ [] := by
    rintro rfl
    exact absurd hlast nofun
  obtain ⟨front, hsplit⟩ := List.dropWhile_suffix isSpace (l := text)
  have hstart : (trimStart text).getLast? = some ')' := by
    rw [← hlast, ← List.getLast?_append_of_ne_nil front (trimStart_ne_nil hne hends)]
    exact congrArg List.getLast? hsplit
  have htrim : trim text = trimStart text :=
    trimEnd_eq_self_iff.mpr fun c hc ↦ Option.some.inj (hstart.symm.trans hc) ▸ rfl
  rw [htrim, hstart]

/-- No weight is named by a text that holds a closing parenthesis. -/
theorem weightNamed?_eq_none {value : List Char} (hvalue : ')' ∈ value) :
    weightNamed? value = none := by
  unfold weightNamed?
  rw [if_neg fun hword ↦ notMem_of_isKeyword rfl hword hvalue,
    if_neg fun hword ↦ notMem_of_isKeyword rfl hword hvalue]

/-- The value of the field for the weight ends as the text does. -/
theorem mem_weightValue? {text value : List Char} (hlast : text.getLast? = some ')')
    (hvalue : weightValue? text = some value) : ')' ∈ value := by
  obtain ⟨behind, hbehind, hkept⟩ := Option.bind_eq_some_iff.mp hvalue
  obtain ⟨word, space, rfl, -, -⟩ := fieldValue?_eq_some_iff.mp hbehind
  rw [List.getLast?_append_of_ne_nil _ (List.cons_ne_nil ':' behind)] at hlast
  dsimp only at hkept
  split at hkept
  · exact absurd hkept.symm (Option.some_ne_none value)
  · obtain rfl := Option.some.inj hkept
    cases behind with
    | nil => exact absurd hlast (by decide)
    | cons c behind =>
      rw [List.getLast?_cons_cons] at hlast
      exact List.mem_of_getLast? (getLast?_trim hlast)

/-- A header line that ends in a closing parenthesis gives components or a label. -/
theorem components_or_label_of_ofLine {rest : List Char} {field : HeaderField}
    (hlast : rest.getLast? = some ')') (hfield : ofLine (commentMark :: rest) = .ok field) :
    (∃ labels, field = .components labels) ∨ ∃ name mark, field = .label name mark := by
  have hend := getLast?_trim hlast
  have hne : ¬ (trim rest).isEmpty = true := fun hempty ↦
    List.ne_nil_of_mem (List.mem_of_getLast? hend) (List.isEmpty_iff.mp hempty)
  rw [ofLine, content_commentMark, ofContent, if_neg hne] at hfield
  cases hweight : weightValue? (trim rest) with
  | some value =>
    rw [hweight] at hfield
    dsimp only at hfield
    rw [weightNamed?_eq_none (mem_weightValue? hend hweight)] at hfield
    cases hfield
  | none =>
    rw [hweight] at hfield
    dsimp only at hfield
    cases hcomponents : componentsValue? (trim rest) with
    | some value =>
      rw [hcomponents] at hfield
      dsimp only at hfield
      cases hwords : words value with
      | nil =>
        rw [hwords] at hfield
        cases hfield
      | cons word others =>
        rw [hwords] at hfield
        exact Or.inl ⟨_, (Except.ok.inj hfield).symm⟩
    | none =>
      rw [hcomponents] at hfield
      obtain ⟨name, mark, hlabel⟩ := exists_labelOf_eq (trim rest)
      exact Or.inr ⟨name, mark, (Except.ok.inj hfield).symm.trans hlabel⟩

end HeaderField

/-- If every line of a text may stand before a raster, a closing parenthesis at its end ends a
header line. -/
theorem GlyphFile.exists_headerLine {text : List Char} (hlast : text.getLast? = some ')')
    (hopening : ∀ line ∈ lines text, isOpening line = true) :
    ∃ rest, HeaderField.commentMark :: rest ∈ (lines text).filter isHeaderLine ∧
      rest.getLast? = some ')' := by
  obtain ⟨line, hmem, hend⟩ := exists_mem_lines rfl hlast
  have hmarked : isHeaderLine line = true := by
    have hline := hopening line hmem
    rw [isOpening, Bool.or_eq_true] at hline
    refine hline.resolve_right fun hblank ↦ ?_
    have hspace := List.all_eq_true.mp hblank ')' (List.mem_of_getLast? hend)
    exact absurd hspace (by decide)
  obtain ⟨rest, rfl⟩ := List.head?_eq_some_iff.mp (beq_iff_eq.mp hmarked)
  refine ⟨rest, List.mem_filter.mpr ⟨hmem, hmarked⟩, ?_⟩
  cases rest with
  | nil => exact absurd hend (by decide)
  | cons c rest => rwa [List.getLast?_cons_cons] at hend

namespace Glyph

/-! ### Glyphs that are kept -/

/-- The stem of the conventional name of a glyph's file. -/
def fileStem (glyph : Glyph) : List Char :=
  Header.stemOf (some (Path.ofString glyph.fileName))

/-- What is read from the canonical text of a glyph in a file of its conventional name. -/
def rewritten (glyph : Glyph) : Except HeaderFault Glyph :=
  GlyphFile.parse glyph.fileText.toList (some (Path.ofString glyph.fileName))

/-- Whether two glyphs agree in all that a file says of a glyph. -/
structure AgreesWith (again glyph : Glyph) : Prop where
  label : again.label = glyph.label
  codepoint : again.codepoint = glyph.codepoint
  weight : again.weight = glyph.weight
  components : again.components = glyph.components
  kind : again.kind = glyph.kind
  grid : again.grid = glyph.grid

/-- Whether rewriting keeps a glyph: what is read agrees with it and has the same canonical text. -/
def IsKept (glyph : Glyph) : Prop :=
  ∃ again, glyph.rewritten = .ok again ∧ again.AgreesWith glyph ∧ again.fileText = glyph.fileText

/-- Whether the header of the canonical text tells what a glyph is: a header line can give its
label, a ligature has no codepoint, and neither the label nor the name of the file gives an
unencoded glyph a mark or a codepoint. -/
structure HeaderTells (glyph : Glyph) : Prop where
  label : IsHeaderLabel glyph.label
  ligature : glyph.kind = .ligature → glyph.codepoint = none
  unencoded : glyph.kind = .standalone → glyph.codepoint = none →
    ¬ HeaderField.EndsInCodepoint glyph.label.toList ∧
      ¬ HeaderField.EndsInLigature glyph.label.toList ∧
      GlyphFile.codepoint? glyph.fileStem = none

/-- Whether the name of the file alone tells what a glyph is: it is regular and unencoded, and the
lines that give its label are read as no label, nor as anything else that it is not. -/
structure NameTells (glyph : Glyph) : Prop where
  kind : glyph.kind = .standalone
  codepoint : glyph.codepoint = none
  weight : glyph.weight = .regular
  raster : (GlyphFile.sections glyph.labelText).raster = []
  fields : ∃ fields,
    HeaderFields.ofLines (GlyphFile.sections glyph.labelText).header = .ok fields ∧
      fields.label = none ∧ fields.components = none ∧ fields.weight ≠ some .bold

variable {glyph : Glyph}

/-- Glyphs that agree have the same canonical text. -/
theorem AgreesWith.fileText_eq {again : Glyph} (hsame : again.AgreesWith glyph) :
    again.fileText = glyph.fileText := by
  simp only [fileText, fileLines, headerLines, labelSuffix, isLigature, weightLines,
    componentsLines, componentLabels, hsame.label, hsame.codepoint, hsame.weight,
    hsame.components, hsame.kind, hsame.grid]

theorem isKept_iff_exists : glyph.IsKept ↔ ∃ again, glyph.rewritten = .ok again ∧
    again.AgreesWith glyph := by
  constructor
  · rintro ⟨again, hagain, hsame, -⟩
    exact ⟨again, hagain, hsame⟩
  · rintro ⟨again, hagain, hsame⟩
    exact ⟨again, hagain, hsame, hsame.fileText_eq⟩

theorem kind_eq_of_isLigature_eq {again : Glyph} (hsame : again.isLigature = glyph.isLigature) :
    again.kind = glyph.kind := by
  cases hkind : glyph.kind with
  | standalone =>
    rw [isLigature_eq_false_iff.mpr hkind] at hsame
    exact isLigature_eq_false_iff.mp hsame
  | ligature =>
    rw [isLigature_eq_true_iff.mpr hkind] at hsame
    exact isLigature_eq_true_iff.mp hsame

/-- What is read again is read from the sections of the canonical text. -/
theorem exists_isReading_rewritten {again : Glyph} (hagain : glyph.rewritten = .ok again) :
    ∃ fields, GlyphFile.IsReading (GlyphFile.sections glyph.fileText.toList) glyph.fileStem fields
      again :=
  GlyphFile.exists_isReading hagain

theorem exists_rewritten {fields : HeaderFields}
    (hheader : HeaderFields.ofLines (GlyphFile.sections glyph.fileText.toList).header = .ok fields)
    (hnamed : fields.label = none → GlyphFile.label glyph.fileStem ≠ "") :
    ∃ again, glyph.rewritten = .ok again ∧
      GlyphFile.IsReading (GlyphFile.sections glyph.fileText.toList) glyph.fileStem fields again :=
  GlyphFile.exists_parse hheader fun hnone ↦ hnamed hnone.1 hnone.2

theorem unencoded_of_labelSuffix (hsuffix : glyph.labelSuffix.toList = []) :
    glyph.kind = .standalone ∧ glyph.codepoint = none := by
  unfold labelSuffix at hsuffix
  split at hsuffix
  · exact absurd hsuffix (by decide)
  · rw [String.toList_append, String.toList_append] at hsuffix
    exact absurd hsuffix (by simp)
  · rename_i hkind hnone
    exact ⟨isLigature_eq_false_iff.mp hkind, hnone⟩

section

variable (hkind : glyph.kind = .standalone) (hcodepoint : glyph.codepoint = none)
  (hslash : '/' ∉ glyph.label.toList)
include hkind hcodepoint hslash

/-- The name of an unencoded glyph's file tells the label of the glyph unless it names a weight. -/
theorem label_fileStem_eq_iff :
    GlyphFile.label glyph.fileStem = glyph.label ↔ glyph.weight = .regular := by
  have hlabel : GlyphFile.label glyph.fileStem =
      glyph.label ++ GlyphFile.weightMark glyph.weight := by
    rw [fileStem, stemOf_fileName_of_unencoded hkind hcodepoint hslash,
      GlyphFile.label_ligatureOpening, String.ofList_toList]
  rw [hlabel, GlyphFile.append_weightMark_eq_iff]

theorem codepoint?_fileStem : GlyphFile.codepoint? glyph.fileStem = none := by
  rw [fileStem, stemOf_fileName_of_unencoded hkind hcodepoint hslash,
    GlyphFile.codepoint?_ligatureOpening]

end

section

variable {text stem : List Char} {fields : HeaderFields}
  (hreading : GlyphFile.IsReading (GlyphFile.sections text) stem fields glyph)
include hreading

/-! ### Labels that a header line can give -/

theorem HeaderTells.isTold (htells : glyph.HeaderTells) : glyph.IsTold := by
  cases hkind : glyph.kind with
  | ligature => exact .ligature hkind (htells.ligature hkind) hreading.areWords
  | standalone =>
    have hcomponents : glyph.components = none :=
      hreading.components_eq_none (isLigature_eq_false_iff.mpr hkind)
    cases hcodepoint : glyph.codepoint with
    | none =>
      obtain ⟨hnumeral, hmark, -⟩ := htells.unencoded hkind hcodepoint
      exact .unencoded hkind hcomponents hcodepoint hnumeral hmark
    | some codepoint =>
      obtain ⟨hleast, hmost⟩ := hreading.codepoint_mem codepoint hcodepoint
      exact .encoded codepoint hkind hcomponents hcodepoint hleast hmost

/-- A glyph that the header tells is kept. -/
theorem HeaderTells.isKept (htells : glyph.HeaderTells) : glyph.IsKept := by
  have htold : glyph.IsTold := htells.isTold hreading
  have hsections := sections_fileText htells.label htold.codepoint_nonneg htold.areWords
    hreading.first_row_ne_nil hreading.last_row_ne_nil
  have hheader : HeaderFields.ofLines (GlyphFile.sections glyph.fileText.toList).header =
      .ok glyph.headerFields := by
    rw [hsections]
    exact ofLines_headerLines htells.label htold
  obtain ⟨again, hagain, hread⟩ := exists_rewritten hheader fun hnone ↦ absurd hnone nofun
  refine isKept_iff_exists.mpr ⟨again, hagain, hread.label, ?_, ?_, hread.components, ?_, ?_⟩
  · have hstem := fun hkind hcodepoint ↦ (htells.unencoded hkind hcodepoint).2.2
    rw [hread.codepoint, codepointOf_headerFields htold hstem, htold.map_codepoint]
  · rw [hread.weight]
    exact getD_writtenWeight glyph
  · exact kind_eq_of_isLigature_eq (hread.isLigature.trans (isLigature_headerFields htold))
  · rw [hread.grid, hsections]
    exact grid_rowTexts glyph.grid

/-- A glyph whose label a header line can give is kept only if the header tells what it is. -/
theorem IsKept.headerTells (hkept : glyph.IsKept) (hlabel : IsHeaderLabel glyph.label) :
    glyph.HeaderTells := by
  obtain ⟨again, hagain, hsame, -⟩ := hkept
  obtain ⟨found, hread⟩ := exists_isReading_rewritten hagain
  have hheader := hread.header
  rw [sections_fileText hlabel hreading.codepoint_nonneg hreading.areWords
    hreading.first_row_ne_nil hreading.last_row_ne_nil] at hheader
  have hfound {name : String} {mark : LabelMark}
      (hline : HeaderField.ofLine glyph.labelText = .ok (.label name mark)) :
      found = ⟨some (name, mark), glyph.writtenWeight, glyph.components⟩ :=
    Except.ok.inj (hheader.symm.trans (ofLines_headerLines_of_ofLine hline hreading.areWords))
  have hcodepointOf := hread.codepoint.symm.trans hsame.codepoint
  refine ⟨hlabel, fun hkind ↦ ?_, fun hkind hcodepoint ↦ ?_⟩
  · -- The mark of a ligature stands where a codepoint would.
    rw [← hcodepointOf, hfound (ofLine_labelText_of_isLigature hlabel hkind)]
    simp [Header.codepointOf, Header.markedCodepoint?, HeaderFields.isLigature]
  · have hline := HeaderField.ofLine_label hlabel
    rw [← labelText_unencoded hkind hcodepoint] at hline
    obtain ⟨name, mark, hlabelOf⟩ := HeaderField.exists_labelOf_eq glyph.label.toList
    rw [hlabelOf] at hline
    have hfields := hfound hline
    obtain rfl : name = glyph.label := by
      rw [← hsame.label, hread.label, hfields]
      rfl
    obtain ⟨rfl, hnumeral, hmark⟩ := hlabel.unmarked_of_labelOf_eq hlabelOf
    refine ⟨hnumeral, hmark, ?_⟩
    have hcomponents := hreading.components_eq_none (isLigature_eq_false_iff.mpr hkind)
    rw [hfields, hcodepoint, hcomponents, Option.map_eq_none_iff] at hcodepointOf
    exact hcodepointOf

/-! ### Labels that no header line can give -/

/-- A line of the label that ends in a closing parenthesis leaves no room for a label that no header
line can give. -/
theorem labelSuffix_eq_nil {found : HeaderFields}
    (hopening : ∀ line ∈ GlyphFile.lines glyph.labelText, GlyphFile.isOpening line = true)
    (hheader : HeaderFields.ofLines ((GlyphFile.lines glyph.labelText).filter
      GlyphFile.isHeaderLine ++
        (glyph.weightLines ++ glyph.componentsLines).map String.toList) = .ok found)
    (hnone : found.label = none) (hcomponents : found.components = glyph.components) :
    glyph.labelSuffix.toList = [] := by
  rcases labelSuffix_eq hreading.codepoint_nonneg with hsuffix | ⟨inner, hsuffix, -⟩
  · exact hsuffix
  have hlast : glyph.labelText.getLast? = some ')' := by
    have htext : glyph.labelText = HeaderField.commentMark :: ' ' ::
        (glyph.label.toList ++ ' ' :: '(' :: inner) ++ [')'] := by
      rw [labelText, hsuffix]
      simp
    rw [htext, List.getLast?_concat]
  obtain ⟨rest, hfilter, hrest⟩ := GlyphFile.exists_headerLine hlast hopening
  obtain ⟨before, hbefore, hbehind⟩ := HeaderFields.addLines_append_eq_ok_iff.mp hheader
  obtain ⟨field, hfield⟩ := HeaderFields.exists_ofLine_of_mem hbefore hfilter
  rcases HeaderField.components_or_label_of_ofLine hrest hfield with
    ⟨labels, rfl⟩ | ⟨name, mark, rfl⟩
  · -- The line of the components would give components for a second time.
    have hgiven := HeaderFields.components_of_mem hbefore hfilter hfield
    obtain ⟨hkept, hothers⟩ := HeaderFields.components_of_addLines hbehind hgiven
    have hlabels : glyph.components = some labels := hcomponents.symm.trans hkept
    have hwords : AreWords labels := hreading.areWords labels hlabels
    refine absurd (HeaderField.ofLine_components hwords) (hothers _ ?_ labels)
    rw [componentsLines_of_some hlabels hwords.1]
    exact List.mem_map_of_mem (List.mem_append_right _ List.mem_cons_self)
  · have hplain := (HeaderFields.label_eq_none_of_addLines hheader hnone).2
    exact absurd hfield (hplain _ (List.mem_append_left _ hfilter) name mark)

section

variable (hlabel : ¬ IsHeaderLabel glyph.label) (hslash : '/' ∉ glyph.label.toList)
include hlabel hslash

/-- A glyph that the name of its file tells is kept. -/
theorem NameTells.isKept (htells : glyph.NameTells) : glyph.IsKept := by
  obtain ⟨found, hheader, hnone, hcomponents, hweight⟩ := htells.fields
  have hopening := GlyphFile.isOpening_of_raster_eq_nil htells.raster
  have hstandalone : glyph.isLigature = false := isLigature_eq_false_iff.mpr htells.kind
  have hplain : glyph.components = none := hreading.components_eq_none hstandalone
  have hbare : glyph.weightLines ++ glyph.componentsLines = [] := by
    rw [componentsLines_of_none hplain, weightLines, htells.weight]
    rfl
  have hsections := sections_fileText_of_isOpening hreading.areWords hreading.last_row_ne_nil
    hopening hreading.first_row_ne_nil
  rw [hbare, List.map_nil, List.append_nil] at hsections
  have hfile : HeaderFields.ofLines (GlyphFile.sections glyph.fileText.toList).header =
      .ok found := by
    rw [GlyphFile.sections, GlyphFile.sectionsOfLines_opening hopening] at hheader
    rw [hsections]
    exact hheader
  have hstem : GlyphFile.label glyph.fileStem = glyph.label :=
    (label_fileStem_eq_iff htells.kind htells.codepoint hslash).mpr htells.weight
  have hnamed : GlyphFile.label glyph.fileStem ≠ "" := by
    rw [hstem]
    exact hreading.named (by_contra fun hsome ↦ hlabel (hreading.isHeaderLabel hsome))
  have hkind : found.isLigature = false := by
    rw [HeaderFields.isLigature, hnone, hcomponents]
    rfl
  obtain ⟨again, hagain, hread⟩ := exists_rewritten hfile fun _ ↦ hnamed
  refine isKept_iff_exists.mpr ⟨again, hagain, ?_, ?_, ?_, ?_, ?_, ?_⟩
  · rw [hread.label, hnone]
    exact hstem
  · rw [hread.codepoint, htells.codepoint, Header.codepointOf, hnone, hkind]
    exact congrArg (Option.map Int.ofNat)
      (codepoint?_fileStem htells.kind htells.codepoint hslash)
  · rw [hread.weight, htells.weight]
    cases hsome : found.weight with
    | none => rfl
    | some weight =>
      cases weight with
      | regular => rfl
      | bold => exact absurd hsome hweight
  · rw [hread.components, hcomponents, hplain]
  · exact kind_eq_of_isLigature_eq (hread.isLigature.trans (hkind.trans hstandalone.symm))
  · rw [hread.grid, hsections]
    exact grid_rowTexts glyph.grid

/-- A glyph whose label no header line can give is kept only if the name of its file tells what it
is. -/
theorem IsKept.nameTells (hkept : glyph.IsKept) : glyph.NameTells := by
  obtain ⟨again, hagain, hsame, -⟩ := hkept
  obtain ⟨found, hread⟩ := exists_isReading_rewritten hagain
  have hnone : found.label = none := by
    by_contra hsome
    exact hlabel (hsame.label ▸ hread.isHeaderLabel hsome)
  have hopening : ∀ line ∈ GlyphFile.lines glyph.labelText, GlyphFile.isOpening line = true := by
    by_contra hnot
    have hlong := length_grid_lt_length_raster hreading.areWords hreading.last_row_ne_nil hnot
    have hlength := congrArg List.length (hread.grid.symm.trans hsame.grid)
    rw [GlyphFile.grid, List.length_map] at hlength
    omega
  have hheader := hread.header
  rw [sections_fileText_of_isOpening hreading.areWords hreading.last_row_ne_nil hopening
    hreading.first_row_ne_nil] at hheader
  have hcomponents : found.components = glyph.components :=
    hread.components.symm.trans hsame.components
  have hsuffix := labelSuffix_eq_nil hreading hopening hheader hnone hcomponents
  obtain ⟨hkind, hcodepoint⟩ := unencoded_of_labelSuffix hsuffix
  have hplain := hreading.components_eq_none (isLigature_eq_false_iff.mpr hkind)
  have hregular : glyph.weight = .regular := by
    rw [← label_fileStem_eq_iff hkind hcodepoint hslash, ← hsame.label, hread.label, hnone]
    rfl
  have hsections : GlyphFile.sections glyph.labelText =
      ⟨(GlyphFile.lines glyph.labelText).filter GlyphFile.isHeaderLine, []⟩ :=
    GlyphFile.sectionsOfLines_opening hopening
  refine ⟨hkind, hcodepoint, hregular, ?_, found, ?_, hnone, hcomponents.trans hplain, ?_⟩
  · rw [hsections]
  · rw [hsections]
    rw [componentsLines_of_none hplain, weightLines, hregular] at hheader
    simpa using hheader
  · intro hbold
    have hweight := hread.weight.symm.trans hsame.weight
    rw [hbold, hregular] at hweight
    exact absurd hweight (by decide)

end

end

/-- The name of a file never tells alone what a glyph is whose label a header line can give. -/
theorem NameTells.not_isHeaderLabel (htells : glyph.NameTells) : ¬ IsHeaderLabel glyph.label := by
  intro hlabel
  obtain ⟨found, hheader, hnone, -⟩ := htells.fields
  have hcodepoint : ∀ codepoint ∈ glyph.codepoint, 0 ≤ codepoint := by
    rw [htells.codepoint]
    exact fun _ hmem ↦ absurd hmem (Option.not_mem_none _)
  have hopening := GlyphFile.isOpening_of_raster_eq_nil htells.raster
  rw [GlyphFile.sections, GlyphFile.sectionsOfLines_opening hopening,
    lines_labelText hlabel hcodepoint] at hheader
  have hline := HeaderField.ofLine_label hlabel
  rw [← labelText_unencoded htells.kind htells.codepoint] at hline
  obtain ⟨name, mark, hlabelOf⟩ := HeaderField.exists_labelOf_eq glyph.label.toList
  have hplain := (HeaderFields.label_eq_none_of_addLines hheader hnone).2
  exact hplain glyph.labelText List.mem_cons_self name mark (hlabelOf ▸ hline)

/-! ### Rewriting -/

/-- A glyph that was read from a text is kept exactly if the header tells what it is, or if the name
of its file alone does. -/
theorem isKept_iff_of_parse {text : List Char} {path : Option Path}
    (hparse : GlyphFile.parse text path = .ok glyph) :
    glyph.IsKept ↔ glyph.HeaderTells ∨ glyph.NameTells := by
  obtain ⟨fields, hreading⟩ := GlyphFile.exists_isReading hparse
  have hslash (hlabel : ¬ IsHeaderLabel glyph.label) : '/' ∉ glyph.label.toList := by
    have hnone : fields.label = none :=
      by_contra fun hsome ↦ hlabel (hreading.isHeaderLabel hsome)
    rw [hreading.label, hnone]
    exact GlyphFile.slash_notMem_label path
  constructor
  · intro hkept
    by_cases hlabel : IsHeaderLabel glyph.label
    · exact Or.inl (hkept.headerTells hreading hlabel)
    · exact Or.inr (hkept.nameTells hreading hlabel (hslash hlabel))
  · rintro (htells | htells)
    · exact htells.isKept hreading
    · have hlabel := htells.not_isHeaderLabel
      exact htells.isKept hreading hlabel (hslash hlabel)

/-- A bold ligature whose components come first in its file. -/
def boldLigature : Glyph where
  label := "f/i"
  codepoint := none
  grid := [[true, false], [], [false, true]]
  weight := .bold
  components := some ["f", "i"]
  kind := .ligature
  rasterLines := ["X ", "", "-X"]
  source := some (Path.ofString "x.glyph")

theorem isKept_iff_of_parse_boldLigature :
    GlyphFile.parse "# components: f i\n# Weight: BOLD\n# f/i\nX \n\n-X\r\n \n".toList
        (some (Path.ofString "x.glyph")) = .ok boldLigature ∧
      boldLigature.HeaderTells ∧ boldLigature.IsKept := by
  have hparse : GlyphFile.parse
      "# components: f i\n# Weight: BOLD\n# f/i\nX \n\n-X\r\n \n".toList
      (some (Path.ofString "x.glyph")) = .ok boldLigature := by
    decide +kernel
  have hlabel : IsHeaderLabel boldLigature.label :=
    { ne_empty := by decide
      trim_eq := by decide
      one_line := by decide
      no_weight := HeaderField.fieldValue?_eq_none_iff.mp (by decide)
      no_components := HeaderField.fieldValue?_eq_none_iff.mp (by decide) }
  have htells : boldLigature.HeaderTells := ⟨hlabel, fun _ ↦ rfl, nofun⟩
  exact ⟨hparse, htells, (isKept_iff_of_parse hparse).mpr (Or.inl htells)⟩

/-- A ligature that a codepoint stands behind the label of. -/
def encodedLigature : Glyph where
  label := "fi"
  codepoint := some 0xFB01
  grid := [[true, true]]
  components := some ["f", "i"]
  kind := .ligature
  rasterLines := ["XX"]

theorem code_rewritten_encodedLigature :
    GlyphFile.parse "# fi (U+FB01)\n# components: f i\n\nXX\n".toList none = .ok encodedLigature ∧
      ¬ encodedLigature.IsKept := by
  have hagain : encodedLigature.rewritten = .ok { encodedLigature with
      codepoint := none
      source := some (Path.ofString "LIG_fi.glyph") } := by
    decide +kernel
  refine ⟨by decide +kernel, ?_⟩
  rintro ⟨again, hfound, hsame, -⟩
  obtain rfl := Except.ok.inj (hagain.symm.trans hfound)
  exact absurd hsame.codepoint (by decide)

end Glyph

end PixelFont
