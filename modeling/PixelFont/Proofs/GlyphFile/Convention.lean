import PixelFont.Proofs.GlyphFile.LineForms
import PixelFont.Proofs.GlyphFile.Rewriting

/-!
Files whose header leaves the label to their name. The name that a glyph's file has by convention
tells the label with the mark of the weight behind it (`IsNameable.label_fileStem`), and the
codepoint (`IsNameable.codepoint?_fileStem`); reading takes off the opening and the ending of the
name, but not the mark. A header that gives the weight and the components alone therefore tells a
regular glyph, while the label of a bold one comes back as another. Main statement:
`isToldByName_iff`.
-/

set_option autoImplicit false

namespace PixelFont

open Text

namespace Glyph

/-- A glyph that the conventional name of its file can tell: the label is not empty and holds no
slash, and a codepoint, which only a character has, is that of a Unicode character. -/
structure IsNameable (glyph : Glyph) : Prop where
  label_ne : glyph.label ≠ ""
  slash : '/' ∉ glyph.label.toList
  codepoint : ∀ codepoint ∈ glyph.codepoint, 0 ≤ codepoint ∧ codepoint ≤ 0x10FFFF
  ligature : glyph.kind = .ligature → glyph.codepoint = none

variable {glyph : Glyph}

/-! ### Names -/

/-- The stem of the name of an encoded character's file begins with the codepoint. -/
theorem IsNameable.isEncodedStem (hglyph : glyph.IsNameable) {codepoint : ℕ}
    (hcodepoint : glyph.codepoint = some (codepoint : Int)) :
    GlyphFile.IsEncodedStem glyph.fileStem (Hexadecimal.padded 4 codepoint).toList
      (glyph.label ++ GlyphFile.weightMark glyph.weight).toList := by
  have hkind : glyph.isLigature = false := by
    rw [isLigature_eq_false_iff]
    cases hkind : glyph.kind with
    | standalone => rfl
    | ligature => exact absurd (hcodepoint.symm.trans (hglyph.ligature hkind)) nofun
  have hopening : glyph.fileOpening =
      GlyphFile.codepointOpening ++ Hexadecimal.padded 4 codepoint ++ "_" := by
    rw [fileOpening, hkind, hcodepoint]
  have hdigits : ∀ c ∈ (Hexadecimal.padded 4 codepoint).toList, Hexadecimal.isDigit c = true :=
    fun c hc ↦ (Hexadecimal.isCapital_of_mem_padded hc).isDigit
  have hslash : '/' ∉ glyph.fileOpening.toList := by
    rw [hopening]
    intro hmem
    simp only [String.toList_append, List.mem_append] at hmem
    rcases hmem with (hmem | hmem) | hmem
    · exact absurd hmem (by decide)
    · exact absurd (hdigits _ hmem) (by decide)
    · exact absurd hmem (by decide)
  refine ⟨?_, fun hnil ↦ ?_, hdigits⟩
  · rw [fileStem, stemOf_fileName hslash hglyph.slash, hopening]
    simp
  · have hlength := Hexadecimal.le_length_padded 4 codepoint
    rw [hnil] at hlength
    exact absurd hlength (by decide)

/-- The stem of the name of any other glyph's file begins with the opening of ligatures. -/
theorem IsNameable.fileStem_eq (hglyph : glyph.IsNameable) (hcodepoint : glyph.codepoint = none) :
    glyph.fileStem = GlyphFile.ligatureOpening.toList ++
      (glyph.label ++ GlyphFile.weightMark glyph.weight).toList := by
  have hopening : glyph.fileOpening = GlyphFile.ligatureOpening := by
    rw [fileOpening, hcodepoint]
    cases glyph.isLigature <;> rfl
  rw [fileStem, stemOf_fileName (by rw [hopening]; decide) hglyph.slash, hopening]

/-- The name tells the label with the mark of the weight. -/
theorem IsNameable.label_fileStem (hglyph : glyph.IsNameable) :
    GlyphFile.label glyph.fileStem = glyph.label ++ GlyphFile.weightMark glyph.weight := by
  cases hcodepoint : glyph.codepoint with
  | none =>
    rw [hglyph.fileStem_eq hcodepoint, GlyphFile.label_ligatureOpening, String.ofList_toList]
  | some codepoint =>
    obtain ⟨number, rfl⟩ := Int.eq_ofNat_of_zero_le (hglyph.codepoint codepoint hcodepoint).1
    exact GlyphFile.label_eq_iff.mpr (.encoded (hglyph.isEncodedStem hcodepoint))

/-- The name tells the codepoint. -/
theorem IsNameable.codepoint?_fileStem (hglyph : glyph.IsNameable) :
    (GlyphFile.codepoint? glyph.fileStem).map Int.ofNat = glyph.codepoint := by
  cases hcodepoint : glyph.codepoint with
  | none =>
    rw [hglyph.fileStem_eq hcodepoint, GlyphFile.codepoint?_ligatureOpening, Option.map_none]
  | some codepoint =>
    obtain ⟨hleast, hmost⟩ := hglyph.codepoint codepoint hcodepoint
    obtain ⟨number, rfl⟩ := Int.eq_ofNat_of_zero_le hleast
    have hnumber : number < 16 ^ (5 + 1) := by omega
    have hstem : GlyphFile.codepoint? glyph.fileStem = some number :=
      GlyphFile.codepoint?_eq_some_iff.mpr ⟨_, _, hglyph.isEncodedStem hcodepoint,
        Hexadecimal.le_length_padded 4 number,
        Hexadecimal.length_padded_le 5 (by decide) hnumber,
        (Hexadecimal.value_padded 4 number).symm⟩
    rw [hstem]
    rfl

/-! ### Headers without a label -/

/-- The words of the components, as they are read from a line that lists them. -/
def listedWords (glyph : Glyph) : List String :=
  (words ([' '].intercalate (glyph.componentLabels.map String.toList))).map String.ofList

/-- A line that lists labels as components gives the words of the labels. -/
theorem isComponentsLine_list {labels : List String}
    (hline : '\n' ∉ ("# components: " ++ " ".intercalate labels).toList) :
    HeaderField.IsComponentsLine ("# components: " ++ " ".intercalate labels).toList
      ((words ([' '].intercalate (labels.map String.toList))).map String.ofList) := by
  have hcontent : HeaderField.content ("# components: " ++ " ".intercalate labels).toList =
      HeaderField.componentsKeyword ++ [':'] ++
        trimEnd (' ' :: [' '].intercalate (labels.map String.toList)) := by
    have hbegins : BeginsSolid (componentsText labels) := by
      intro c hc
      obtain rfl : 'c' = c := Option.some.inj hc
      rfl
    have hsplit : componentsText labels = HeaderField.componentsKeyword ++ [':'] ++
        (' ' :: [' '].intercalate (labels.map String.toList)) := by
      rw [List.append_assoc]
      rfl
    rw [toList_componentsLine, HeaderField.content_commentMark, trim,
      trimStart_cons_of_isSpace rfl, trimStart_eq_self_iff.mpr hbegins, hsplit,
      trimEnd_append (trimEnd_eq_self_iff.mp (by decide))]
  refine ⟨trimEnd (' ' :: [' '].intercalate (labels.map String.toList)),
    ⟨HeaderField.componentsKeyword, [], ?_, rfl, List.forall_mem_nil _⟩, fun hmem ↦ ?_, ?_⟩
  · rw [hcontent]
    simp
  · refine hline (HeaderField.mem_of_mem_content ?_)
    rw [hcontent]
    exact List.mem_append_right _ hmem
  · rw [words_trimEnd, words_cons_of_isSpace rfl]

/-- The components that a header of the weight and the components alone gives. -/
def listedComponents (glyph : Glyph) : Option (List String) :=
  if glyph.componentLabels = [] then none else some glyph.listedWords

/-- Whether a glyph lists components of which none has a word. -/
def ListsNothing (glyph : Glyph) : Prop :=
  glyph.componentLabels ≠ [] ∧
    ∀ label ∈ glyph.componentLabels, ∀ c ∈ label.toList, isSpace c = true

theorem listedComponents_eq_some_nil_iff :
    glyph.listedComponents = some [] ↔ glyph.ListsNothing := by
  rw [listedComponents, Option.ite_none_left_eq_some, Option.some.injEq, listedWords,
    List.map_eq_nil_iff, words_eq_nil_iff]
  refine and_congr_right fun _ ↦ ⟨fun hblank label hlabel c hc ↦ ?_, fun hblank c hc ↦ ?_⟩
  · exact hblank c (mem_intercalate_of_mem ' ' (List.mem_map_of_mem hlabel) hc)
  · rcases mem_intercalate hc with rfl | ⟨part, hpart, hmem⟩
    · rfl
    · obtain ⟨label, hlabel, rfl⟩ := List.mem_map.mp hpart
      exact hblank label hlabel c hmem

theorem listedComponents_eq_none_iff :
    glyph.listedComponents = none ↔ glyph.componentLabels = [] := by
  rw [listedComponents]
  split <;> simp [*]

/-- A header of the weight and the components alone is read as these, unless the components have no
word. -/
theorem ofLines_fieldLines
    (hlines : ∀ line ∈ (glyph.weightLines ++ glyph.componentsLines).map String.toList,
      '\n' ∉ line) :
    HeaderFields.ofLines ((glyph.weightLines ++ glyph.componentsLines).map String.toList) =
      if glyph.listedComponents = some [] then .error .noComponents
      else .ok { weight := glyph.writtenWeight, components := glyph.listedComponents } := by
  rw [HeaderFields.ofLines, List.map_append, addLines_weightLines rfl]
  by_cases hnone : glyph.componentLabels = []
  · have hno : glyph.componentsLines = [] := by rw [componentsLines, hnone]
    rw [listedComponents, if_pos hnone, if_neg (Option.some_ne_none _).symm, hno]
    rfl
  · have hlist : glyph.componentsLines =
        ["# components: " ++ " ".intercalate glyph.componentLabels] := by
      rw [componentsLines]
      split
      · exact absurd ‹_› hnone
      · rfl
    have hfree : '\n' ∉ ("# components: " ++ " ".intercalate glyph.componentLabels).toList := by
      refine hlines _ (List.mem_map_of_mem (List.mem_append_right _ ?_))
      rw [hlist]
      exact List.mem_singleton_self _
    have hline := HeaderField.ofLine_of_isComponentsLine (isComponentsLine_list hfree)
    rw [← listedWords] at hline
    rw [listedComponents, if_neg hnone, hlist, List.map_singleton]
    by_cases hempty : glyph.listedWords = []
    · rw [if_pos hempty] at hline
      rw [if_pos (congrArg some hempty), HeaderFields.addLines, hline]
      rfl
    · rw [if_neg hempty] at hline
      rw [if_neg fun hsome ↦ hempty (Option.some.inj hsome)]
      exact HeaderFields.addLines_cons hline rfl

/-! ### Reading -/

/-- Whether reading a file tells a glyph's label, its weight and, for a character, its codepoint. -/
def IsToldBy (glyph : Glyph) (outcome : Except HeaderFault Glyph) : Prop :=
  ∃ again, outcome = .ok again ∧ again.label = glyph.label ∧ again.weight = glyph.weight ∧
    (glyph.kind = .standalone → again.codepoint = glyph.codepoint)

section Reading

variable {text : List Char}
  (hheader : (GlyphFile.sections text).header =
    (glyph.weightLines ++ glyph.componentsLines).map String.toList)
include hheader

theorem ofLines_header :
    HeaderFields.ofLines (GlyphFile.sections text).header =
      if glyph.listedComponents = some [] then .error .noComponents
      else .ok { weight := glyph.writtenWeight, components := glyph.listedComponents } := by
  have hlines : ∀ line ∈ (glyph.weightLines ++ glyph.componentsLines).map String.toList,
      '\n' ∉ line := fun line hline ↦ GlyphFile.notMem_header (hheader.symm ▸ hline)
  rw [hheader, ofLines_fieldLines hlines]

/-- Components that have no word are refused. -/
theorem parse_eq_error_of_listsNothing (hnothing : glyph.ListsNothing) (path : Option Path) :
    GlyphFile.parse text path = .error .noComponents := by
  have hfields := ofLines_header hheader
  rw [if_pos (listedComponents_eq_some_nil_iff.mpr hnothing)] at hfields
  rw [GlyphFile.parse, Header.ofLines, hfields]
  rfl

/-- The label that is read has the mark of the weight behind it, and a codepoint is read where there
are no components. -/
theorem IsNameable.exists_parse_fileName (hglyph : glyph.IsNameable)
    (hlists : ¬ glyph.ListsNothing) :
    ∃ again, GlyphFile.parse text (some (Path.ofString glyph.fileName)) = .ok again ∧
      again.label = glyph.label ++ GlyphFile.weightMark glyph.weight ∧
      again.weight = glyph.weight ∧
      again.codepoint = if glyph.componentLabels = [] then glyph.codepoint else none := by
  have hfields := ofLines_header hheader
  rw [if_neg fun hsome ↦ hlists (listedComponents_eq_some_nil_iff.mp hsome)] at hfields
  have hnamed : GlyphFile.label glyph.fileStem ≠ "" := by
    rw [hglyph.label_fileStem]
    intro hempty
    exact hglyph.label_ne (String.append_eq_empty_iff.mp hempty).1
  obtain ⟨again, hagain, hread⟩ := GlyphFile.exists_parse hfields fun hnone ↦ hnamed hnone.2
  have hlabel := hread.label
  rw [Option.map_none, Option.getD_none, ← fileStem, hglyph.label_fileStem] at hlabel
  refine ⟨again, hagain, hlabel, hread.weight.trans (getD_writtenWeight glyph), ?_⟩
  by_cases hnone : glyph.componentLabels = []
  · have hstem : Header.codepointOf ⟨none, glyph.writtenWeight, glyph.listedComponents⟩
        glyph.fileStem = GlyphFile.codepoint? glyph.fileStem := by
      rw [listedComponents_eq_none_iff.mpr hnone]
      rfl
    rw [if_pos hnone, hread.codepoint, ← fileStem, hstem, hglyph.codepoint?_fileStem]
  · have hstem : Header.codepointOf ⟨none, glyph.writtenWeight, glyph.listedComponents⟩
        glyph.fileStem = none := by
      rw [listedComponents, if_neg hnone]
      rfl
    rw [if_neg hnone, hread.codepoint, ← fileStem, hstem, Option.map_none]

end Reading

/-- What is read from a file of the conventional name whose header gives a glyph's weight and
components alone: the label with the mark of the weight, and the codepoint unless there are
components; nothing where the components have no word. The glyph is told exactly if it is regular,
its components have a word if there are any, and it is no encoded character with components. -/
theorem isToldByName_iff (hglyph : glyph.IsNameable) {text : List Char}
    (hheader : (GlyphFile.sections text).header =
      (glyph.weightLines ++ glyph.componentsLines).map String.toList) :
    let outcome := GlyphFile.parse text (some (Path.ofString glyph.fileName))
    (glyph.ListsNothing → outcome = .error .noComponents) ∧
      (¬ glyph.ListsNothing → ∃ again, outcome = .ok again ∧
        again.label = glyph.label ++ GlyphFile.weightMark glyph.weight ∧
        again.weight = glyph.weight ∧
        again.codepoint = if glyph.componentLabels = [] then glyph.codepoint else none) ∧
      (glyph.IsToldBy outcome ↔ glyph.weight = .regular ∧ ¬ glyph.ListsNothing ∧
        (glyph.kind = .standalone → glyph.componentLabels = [] ∨ glyph.codepoint = none)) := by
  intro outcome
  refine ⟨fun hnothing ↦ parse_eq_error_of_listsNothing hheader hnothing _,
    hglyph.exists_parse_fileName hheader, ?_⟩
  by_cases hnothing : glyph.ListsNothing
  · refine iff_of_false ?_ fun htold ↦ htold.2.1 hnothing
    rintro ⟨again, hagain, -⟩
    exact absurd ((parse_eq_error_of_listsNothing hheader hnothing _).symm.trans hagain) nofun
  · obtain ⟨again, hagain, hlabel, hweight, hcodepoint⟩ :=
      hglyph.exists_parse_fileName hheader hnothing
    have htold : glyph.IsToldBy outcome ↔ again.label = glyph.label ∧
        again.weight = glyph.weight ∧
        (glyph.kind = .standalone → again.codepoint = glyph.codepoint) := by
      constructor
      · rintro ⟨other, hother, hsame⟩
        obtain rfl := Except.ok.inj (hagain.symm.trans hother)
        exact hsame
      · exact fun hsame ↦ ⟨again, hagain, hsame⟩
    rw [htold, hlabel, GlyphFile.append_weightMark_eq_iff, hcodepoint]
    refine and_congr_right fun _ ↦ and_congr (iff_of_true hweight hnothing)
      (forall_congr' fun _ ↦ ?_)
    by_cases hnone : glyph.componentLabels = []
    · exact iff_of_true (if_pos hnone) (.inl hnone)
    · rw [if_neg hnone, or_iff_right hnone, eq_comm]

/-- A character whose label looks like the opening and the mark of a name itself. -/
def namedFace : Glyph where
  label := "LIG_x.bold"
  codepoint := some 0x1F600
  grid := [[true]]

/-- The label of a regular character may look like anything. -/
theorem isToldByName_namedFace :
    namedFace.IsNameable ∧
      (GlyphFile.sections "X\n".toList).header =
        (namedFace.weightLines ++ namedFace.componentsLines).map String.toList ∧
      namedFace.IsToldBy
        (GlyphFile.parse "X\n".toList (some (Path.ofString namedFace.fileName))) := by
  have hglyph : namedFace.IsNameable :=
    { label_ne := by decide
      slash := by decide
      codepoint := by decide
      ligature := nofun }
  have hheader : (GlyphFile.sections "X\n".toList).header =
      (namedFace.weightLines ++ namedFace.componentsLines).map String.toList := by
    decide
  refine ⟨hglyph, hheader, (isToldByName_iff hglyph hheader).2.2.mpr ⟨rfl, ?_, fun _ ↦ .inl rfl⟩⟩
  exact fun hnothing ↦ hnothing.1 rfl

/-- A letter that is drawn bold. -/
def boldLetter : Glyph where
  label := "A"
  codepoint := some 0x41
  grid := [[true]]
  weight := .bold
  rasterLines := ["X"]

/-- The name of a bold letter's file does not tell the letter. -/
theorem not_isToldByName_boldLetter :
    boldLetter.fileName = "U+0041_A.bold.glyph" ∧
      (GlyphFile.sections "# weight: bold\n\nX\n".toList).header =
        (boldLetter.weightLines ++ boldLetter.componentsLines).map String.toList ∧
      GlyphFile.parse "# weight: bold\n\nX\n".toList (some (Path.ofString boldLetter.fileName)) =
        .ok { boldLetter with
          label := "A.bold"
          source := some (Path.ofString "U+0041_A.bold.glyph") } ∧
      ¬ boldLetter.IsToldBy (GlyphFile.parse "# weight: bold\n\nX\n".toList
        (some (Path.ofString boldLetter.fileName))) := by
  have hparse : GlyphFile.parse "# weight: bold\n\nX\n".toList
      (some (Path.ofString boldLetter.fileName)) = .ok { boldLetter with
        label := "A.bold"
        source := some (Path.ofString "U+0041_A.bold.glyph") } := by
    decide +kernel
  refine ⟨by decide +kernel, by decide +kernel, hparse, ?_⟩
  rintro ⟨again, hagain, hlabel, -⟩
  obtain rfl := Except.ok.inj (hparse.symm.trans hagain)
  exact absurd hlabel (by decide)

end Glyph

end PixelFont
