import PixelFont.GlyphFile.Reader
import PixelFont.GlyphFile.Writer
import PixelFont.Proofs.GlyphFile.HeaderLine
import PixelFont.Proofs.GlyphFile.Sections

/-!
The canonical text of a glyph, line by line. Where its label may stand in a header and its
components are words, every line holds no line feed and ends solid, so that the reader finds the
same lines (`lines_fileText`). Where also the raster neither begins nor ends with an empty row, it
finds the same header lines and the same raster (`sections_fileText`).
-/

set_option autoImplicit false

namespace PixelFont

open Text

/-- Whether a label may stand in a header line as it is: it is not empty, stands on one line with
no white space around it, and starts no other field. -/
structure IsHeaderLabel (label : String) : Prop where
  ne_empty : label ≠ ""
  trim_eq : trim label.toList = label.toList
  one_line : '\n' ∉ label.toList
  no_weight : ¬ HeaderField.StartsField HeaderField.weightKeyword label.toList
  no_components : ¬ HeaderField.StartsField HeaderField.componentsKeyword label.toList

/-- Whether labels may be given as components: there is one, and none is empty or holds white
space. -/
def AreWords (labels : List String) : Prop :=
  labels ≠ [] ∧ ∀ label ∈ labels, label ≠ "" ∧ ∀ c ∈ label.toList, isSpace c = false

/-- Whether a text can be a line: it holds no line feed and ends solid. -/
def IsLine (text : List Char) : Prop :=
  '\n' ∉ text ∧ EndsSolid text

theorem IsLine.append {text : List Char} (htext : IsLine text) (hne : text ≠ [])
    {front : List Char} (hfront : '\n' ∉ front) : IsLine (front ++ text) :=
  ⟨fun hmem ↦ (List.mem_append.mp hmem).elim hfront htext.1,
    (endsSolid_append_iff front hne).mpr htext.2⟩

theorem isLine_of_forall {text : List Char} (htext : ∀ c ∈ text, isSpace c = false) :
    IsLine text :=
  ⟨fun hmem ↦ absurd (htext _ hmem) (by decide), endsSolid_of_forall htext⟩

namespace IsHeaderLabel

variable {label : String} (hlabel : IsHeaderLabel label)

include hlabel

theorem toList_ne_nil : label.toList ≠ [] :=
  fun hnil ↦ hlabel.ne_empty (String.toList_eq_nil_iff.mp hnil)

theorem beginsSolid : BeginsSolid label.toList :=
  (trim_eq_self_iff.mp hlabel.trim_eq).1

theorem endsSolid : EndsSolid label.toList :=
  (trim_eq_self_iff.mp hlabel.trim_eq).2

end IsHeaderLabel

namespace AreWords

variable {labels : List String} (hlabels : AreWords labels)

include hlabels

theorem toList_mem :
    ∀ word ∈ labels.map String.toList, word ≠ [] ∧ ∀ c ∈ word, isSpace c = false := by
  intro word hword
  obtain ⟨label, hlabel, rfl⟩ := List.mem_map.mp hword
  obtain ⟨hne, hsolid⟩ := hlabels.2 label hlabel
  exact ⟨fun hnil ↦ hne (String.toList_eq_nil_iff.mp hnil), hsolid⟩

theorem joined_ne_nil : [' '].intercalate (labels.map String.toList) ≠ [] :=
  (endsSolid_intercalate (by simpa using hlabels.1) hlabels.toList_mem).1

theorem isLine_joined : IsLine ([' '].intercalate (labels.map String.toList)) := by
  refine ⟨fun hmem ↦ ?_,
    (endsSolid_intercalate (by simpa using hlabels.1) hlabels.toList_mem).2⟩
  rcases mem_intercalate hmem with hspace | ⟨word, hword, hc⟩
  · exact absurd hspace (by decide)
  · exact absurd ((hlabels.toList_mem word hword).2 _ hc) (by decide)

end AreWords

namespace Glyph

/-! ### Header lines -/

/-- What stands behind the comment mark in the line of some components. -/
def componentsText (labels : List String) : List Char :=
  HeaderField.componentsKeyword ++ ':' :: ' ' :: [' '].intercalate (labels.map String.toList)

theorem toList_componentsLine (labels : List String) :
    ("# components: " ++ " ".intercalate labels).toList =
      HeaderField.commentMark :: ' ' :: componentsText labels := by
  rw [String.toList_append, String.toList_intercalate]
  rfl

theorem isLine_componentsText {labels : List String} (hlabels : AreWords labels) :
    IsLine (componentsText labels) := by
  have hcolon : '\n' ∉ [':', ' '] := by decide
  have hkeyword : '\n' ∉ HeaderField.componentsKeyword := by decide
  exact (hlabels.isLine_joined.append hlabels.joined_ne_nil hcolon).append
    (List.cons_ne_nil _ _) hkeyword

/-- The characters that give the label. They are one line unless the label holds a line feed. -/
def labelText (glyph : Glyph) : List Char :=
  HeaderField.commentMark :: ' ' :: (glyph.label.toList ++ glyph.labelSuffix.toList)

theorem toList_labelLine (glyph : Glyph) :
    ("# " ++ glyph.label ++ glyph.labelSuffix).toList = glyph.labelText := by
  rw [String.toList_append, String.toList_append]
  rfl

/-- A text ends solid if it ends with a closing parenthesis. -/
theorem endsSolid_parenthesis (front inner : List Char) :
    EndsSolid (front ++ ' ' :: '(' :: (inner ++ [')'])) := by
  have hlast : EndsSolid [')'] := by
    intro c hc
    obtain rfl : ')' = c := Option.some.inj hc
    rfl
  rw [endsSolid_append_iff _ (List.cons_ne_nil _ _)]
  exact (endsSolid_append_iff (' ' :: '(' :: inner) (List.cons_ne_nil ')' [])).mpr hlast

variable {glyph : Glyph}

theorem componentsLines_of_none (hnone : glyph.components = none) : glyph.componentsLines = [] := by
  rw [componentsLines, componentLabels, hnone]
  rfl

theorem componentsLines_of_some {labels : List String} (hsome : glyph.components = some labels)
    (hne : labels ≠ []) :
    glyph.componentsLines = ["# components: " ++ " ".intercalate labels] := by
  rw [componentsLines, componentLabels, hsome, Option.getD_some]
  cases labels with
  | nil => exact absurd rfl hne
  | cons label labels => rfl

/-- What stands behind a label is nothing or stands in parentheses after a space. -/
theorem labelSuffix_eq (hcodepoint : ∀ codepoint ∈ glyph.codepoint, 0 ≤ codepoint) :
    glyph.labelSuffix.toList = [] ∨ ∃ inner,
      glyph.labelSuffix.toList = ' ' :: '(' :: (inner ++ [')']) ∧ '\n' ∉ inner := by
  unfold labelSuffix
  split
  · exact Or.inr ⟨"ligature".toList, rfl, by decide⟩
  · rename_i codepoint _ hsome
    obtain ⟨number, rfl⟩ := Int.eq_ofNat_of_zero_le (hcodepoint codepoint hsome)
    refine Or.inr ⟨'U' :: '+' :: (Hexadecimal.padded 4 number).toList, ?_, ?_⟩
    · rw [String.toList_append, String.toList_append]
      rfl
    · intro hmem
      rcases List.mem_cons.mp hmem with hu | hmem
      · exact absurd hu (by decide)
      rcases List.mem_cons.mp hmem with hplus | hmem
      · exact absurd hplus (by decide)
      · exact absurd (Hexadecimal.isCapital_of_mem_padded hmem).isAlphanum (by decide)
  · exact Or.inl rfl

theorem isLine_rowText (row : List Bool) : IsLine (Grid.rowText row).toList := by
  refine isLine_of_forall fun c hc ↦ ?_
  rw [Grid.rowText, String.toList_ofList] at hc
  obtain ⟨cell, -, rfl⟩ := List.mem_map.mp hc
  cases cell <;> rfl

/-- A row that is not empty neither stands before the raster nor is blank. -/
theorem isOpening_rowText {row : List Bool} (hrow : row ≠ []) :
    GlyphFile.isOpening (Grid.rowText row).toList = false := by
  cases row with
  | nil => exact absurd rfl hrow
  | cons cell row =>
    rw [Grid.rowText, String.toList_ofList]
    cases cell <;> rfl

section

variable (hcomponents : ∀ labels ∈ glyph.components, AreWords labels)

include hcomponents

/-- Each header line behind that of the label is a line behind the comment mark and a space. -/
theorem exists_of_mem_fieldLines {line : String}
    (hline : line ∈ glyph.weightLines ++ glyph.componentsLines) :
    ∃ text, line.toList = HeaderField.commentMark :: ' ' :: text ∧ text ≠ [] ∧ IsLine text := by
  rcases List.mem_append.mp hline with hweight | hlabels
  · unfold weightLines at hweight
    cases hbold : glyph.weight with
    | regular =>
      rw [hbold] at hweight
      exact absurd hweight List.not_mem_nil
    | bold =>
      rw [hbold] at hweight
      obtain rfl := List.mem_singleton.mp hweight
      exact ⟨"weight: bold".toList, rfl, by decide, by decide,
        trimEnd_eq_self_iff.mp (by decide)⟩
  · cases hsome : glyph.components with
    | none =>
      rw [componentsLines_of_none hsome] at hlabels
      exact absurd hlabels List.not_mem_nil
    | some labels =>
      have hwords : AreWords labels := hcomponents labels hsome
      rw [componentsLines_of_some hsome hwords.1] at hlabels
      obtain rfl := List.mem_singleton.mp hlabels
      exact ⟨_, toList_componentsLine labels, List.append_ne_nil_of_left_ne_nil (by decide) _,
        isLine_componentsText hwords⟩

theorem isHeaderLine_of_mem_fieldLines {line : List Char}
    (hline : line ∈ (glyph.weightLines ++ glyph.componentsLines).map String.toList) :
    GlyphFile.isHeaderLine line = true := by
  obtain ⟨field, hfield, rfl⟩ := List.mem_map.mp hline
  obtain ⟨text, htext, -, -⟩ := exists_of_mem_fieldLines hcomponents hfield
  rw [htext]
  rfl

/-! ### Lines and sections -/

/-- Each line behind that of the label can be a line. -/
theorem isLine_of_mem_fileLines {line : String}
    (hline : line ∈ glyph.weightLines ++ glyph.componentsLines ++ "" :: glyph.grid.rowTexts) :
    IsLine line.toList := by
  rcases List.mem_append.mp hline with hfield | hline
  · obtain ⟨text, htext, hne, hsolid⟩ := exists_of_mem_fieldLines hcomponents hfield
    have hmark : '\n' ∉ [HeaderField.commentMark, ' '] := by decide
    rw [htext]
    exact hsolid.append hne hmark
  rcases List.mem_cons.mp hline with rfl | hrow
  · exact isLine_of_forall fun _ hc ↦ absurd hc List.not_mem_nil
  · obtain ⟨row, -, rfl⟩ := List.mem_map.mp hrow
    exact isLine_rowText row

/-- Whatever the label, the reader finds the lines that give it and then the lines that the
canonical text was made of. -/
theorem lines_fileText :
    GlyphFile.lines glyph.fileText.toList =
      GlyphFile.lines glyph.labelText ++
        ((glyph.weightLines ++ glyph.componentsLines).map String.toList ++ [[]]) ++
        glyph.grid.rowTexts.map String.toList ++ [[]] := by
  have hlines (line : String)
      (hline : line ∈ glyph.weightLines ++ glyph.componentsLines ++ "" :: glyph.grid.rowTexts) :
      IsLine line.toList :=
    isLine_of_mem_fileLines hcomponents hline
  have hne : glyph.weightLines ++ glyph.componentsLines ++ "" :: glyph.grid.rowTexts ≠ [] :=
    List.append_ne_nil_of_right_ne_nil _ (List.cons_ne_nil _ _)
  have htext : glyph.fileText.toList = glyph.labelText ++ '\n' ::
      ("\n".intercalate (glyph.weightLines ++ glyph.componentsLines ++ "" :: glyph.grid.rowTexts) ++
        "\n").toList := by
    obtain ⟨first, others, hfirst⟩ := List.exists_cons_of_ne_nil hne
    rw [fileText, fileLines, headerLines, List.cons_append, hfirst,
      String.intercalate_cons_cons, ← toList_labelLine]
    simp [String.toList_append]
  rw [htext, GlyphFile.lines_append_cons, GlyphFile.lines_intercalate hne
    (fun line hline ↦ (hlines line hline).1) fun line hline ↦ (hlines line hline).2]
  simp

variable (hlast : ∀ row ∈ glyph.grid.getLast?, row ≠ [])

include hlast

omit hcomponents in
theorem isBlank_getLast?_rowTexts :
    ∀ line ∈ (glyph.grid.rowTexts.map String.toList).getLast?,
      GlyphFile.isBlank line = false := by
  intro line hline
  rw [Grid.rowTexts, List.map_map, List.getLast?_map] at hline
  obtain ⟨row, hrow, rfl⟩ := Option.map_eq_some_iff.mp hline
  exact (Bool.or_eq_false_iff.mp (isOpening_rowText (hlast row hrow))).2

/-- If the label holds a line that may not stand before the raster, the reader finds more rows than
were written. -/
theorem length_grid_lt_length_raster
    (hlabel : ¬ ∀ line ∈ GlyphFile.lines glyph.labelText, GlyphFile.isOpening line = true) :
    glyph.grid.length < (GlyphFile.sections glyph.fileText.toList).raster.length := by
  cases hstop : (GlyphFile.lines glyph.labelText).dropWhile GlyphFile.isOpening with
  | nil => exact absurd (List.dropWhile_eq_nil_iff.mp hstop) hlabel
  | cons line back =>
    have hopening : ∀ line ∈ (GlyphFile.lines glyph.labelText).takeWhile GlyphFile.isOpening,
        GlyphFile.isOpening line = true :=
      fun _ hmem ↦ List.mem_takeWhile_imp hmem
    have hline : GlyphFile.isOpening line = false := by
      have hhead := List.head?_dropWhile_not GlyphFile.isOpening (GlyphFile.lines glyph.labelText)
      rw [hstop] at hhead
      exact hhead
    have hlength : (glyph.grid.rowTexts.map String.toList).length = glyph.grid.length := by
      rw [List.length_map, Grid.rowTexts, List.length_map]
    have hlong := GlyphFile.length_lt_length_raster
      (back ++ ((glyph.weightLines ++ glyph.componentsLines).map String.toList ++ [[]]))
      hopening hline (isBlank_getLast?_rowTexts hlast)
    have hsplit := List.takeWhile_append_dropWhile (p := GlyphFile.isOpening)
      (l := GlyphFile.lines glyph.labelText)
    rw [hstop] at hsplit
    rw [GlyphFile.sections, lines_fileText hcomponents, ← hsplit, ← hlength]
    simpa using hlong

/-- If every line of the label may stand before the raster, the reader finds the header lines among
them, the other header lines and the raster that the canonical text was made of. -/
theorem sections_fileText_of_isOpening
    (hlabel : ∀ line ∈ GlyphFile.lines glyph.labelText, GlyphFile.isOpening line = true)
    (hfirst : ∀ row ∈ glyph.grid.head?, row ≠ []) :
    GlyphFile.sections glyph.fileText.toList =
      ⟨(GlyphFile.lines glyph.labelText).filter GlyphFile.isHeaderLine ++
          (glyph.weightLines ++ glyph.componentsLines).map String.toList,
        glyph.grid.rowTexts.map String.toList⟩ := by
  have hmarked : ∀ line ∈ (glyph.weightLines ++ glyph.componentsLines).map String.toList,
      GlyphFile.isHeaderLine line = true :=
    fun line hline ↦ isHeaderLine_of_mem_fieldLines hcomponents hline
  have hopening : ∀ line ∈ GlyphFile.lines glyph.labelText ++
      ((glyph.weightLines ++ glyph.componentsLines).map String.toList ++ [[]]),
      GlyphFile.isOpening line = true := by
    intro line hline
    rcases List.mem_append.mp hline with hline | hline
    · exact hlabel line hline
    rcases List.mem_append.mp hline with hfield | hempty
    · rw [GlyphFile.isOpening, hmarked line hfield, Bool.true_or]
    · rw [List.mem_singleton.mp hempty]
      rfl
  have hheader : ((glyph.weightLines ++ glyph.componentsLines).map String.toList ++
      [[]]).filter GlyphFile.isHeaderLine =
      (glyph.weightLines ++ glyph.componentsLines).map String.toList := by
    rw [List.filter_append, List.filter_eq_self.mpr hmarked]
    exact List.append_nil _
  have hfirstRow : ∀ line ∈ (glyph.grid.rowTexts.map String.toList).head?,
      GlyphFile.isOpening line = false := by
    intro line hline
    rw [Grid.rowTexts, List.map_map, List.head?_map] at hline
    obtain ⟨row, hrow, rfl⟩ := Option.map_eq_some_iff.mp hline
    exact isOpening_rowText (hfirst row hrow)
  rw [GlyphFile.sections, lines_fileText hcomponents,
    GlyphFile.sectionsOfLines_append hopening hfirstRow (isBlank_getLast?_rowTexts hlast)
      (by decide), List.filter_append, hheader]

end

section

variable (hlabel : IsHeaderLabel glyph.label)
  (hcodepoint : ∀ codepoint ∈ glyph.codepoint, 0 ≤ codepoint)

include hlabel hcodepoint

theorem isLine_labelText : IsLine glyph.labelText := by
  have hmark : '\n' ∉ [HeaderField.commentMark, ' '] := by decide
  have hline : IsLine (glyph.label.toList ++ glyph.labelSuffix.toList) := by
    rcases labelSuffix_eq hcodepoint with hsuffix | ⟨inner, hsuffix, hinner⟩
    · rw [hsuffix, List.append_nil]
      exact ⟨hlabel.one_line, hlabel.endsSolid⟩
    · rw [hsuffix]
      refine ⟨?_, endsSolid_parenthesis _ inner⟩
      simpa [hlabel.one_line] using hinner
  exact hline.append (List.append_ne_nil_of_left_ne_nil hlabel.toList_ne_nil _) hmark

/-- A label that may stand in a header line stands in one line. -/
theorem lines_labelText : GlyphFile.lines glyph.labelText = [glyph.labelText] := by
  have hline := isLine_labelText hlabel hcodepoint
  rw [GlyphFile.lines, List.splitOn_eq_singleton hline.1, List.map_singleton,
    GlyphFile.dropReturn_of_endsSolid hline.2]

/-- The reader finds the header lines and the raster that the canonical text was made of. -/
theorem sections_fileText (hcomponents : ∀ labels ∈ glyph.components, AreWords labels)
    (hfirst : ∀ row ∈ glyph.grid.head?, row ≠ [])
    (hlast : ∀ row ∈ glyph.grid.getLast?, row ≠ []) :
    GlyphFile.sections glyph.fileText.toList =
      ⟨glyph.headerLines.map String.toList, glyph.grid.rowTexts.map String.toList⟩ := by
  have hlines := lines_labelText hlabel hcodepoint
  have hopening : ∀ line ∈ GlyphFile.lines glyph.labelText, GlyphFile.isOpening line = true := by
    rw [hlines, List.forall_mem_singleton]
    rfl
  rw [sections_fileText_of_isOpening hcomponents hlast hopening hfirst, hlines, headerLines,
    List.map_cons, toList_labelLine]
  rfl

end

end Glyph

end PixelFont
