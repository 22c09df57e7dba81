import PixelFont.Proofs.GlyphFile.Canonical
import PixelFont.Proofs.GlyphFile.HeaderFields
import PixelFont.Proofs.GlyphFile.Name

/-!
What is known of a glyph that was read. A label that a header line gives may be written in a header
line again, and if it bears no mark it does not look as if it did; components are words; a codepoint
has at most six digits; and the raster neither begins nor ends with an empty row. Each line keeps
this of the fields, and so do all of them (`areRead_of_addLines`). Main statement:
`exists_isReading`.
-/

set_option autoImplicit false

namespace PixelFont

open Text

namespace HeaderField

/-! ### Values -/

theorem trim_content (line : List Char) : trim (content line) = content line := by
  unfold content
  split
  · rfl
  · split
    · exact trim_trim _
    · exact trim_trim _

theorem mem_of_mem_content {line : List Char} {c : Char} (hc : c ∈ content line) : c ∈ line := by
  unfold content at hc
  split at hc
  · exact absurd hc List.not_mem_nil
  · rename_i first rest hstart
    have hline : ∀ other ∈ first :: rest, other ∈ line := fun other hother ↦
      List.dropWhile_subset isSpace (by rwa [← hstart] at hother)
    split at hc
    · exact hline c (List.mem_cons_of_mem first (mem_of_mem_trim hc))
    · exact hline c (mem_of_mem_trim hc)

section OneLine

variable {text : List Char} (hline : '\n' ∉ text)
include hline

theorem notMem_fieldValue? {keyword value : List Char}
    (hvalue : fieldValue? keyword text = some value) : '\n' ∉ value := by
  obtain ⟨word, space, rfl, -, -⟩ := fieldValue?_eq_some_iff.mp hvalue
  intro hmem
  exact hline (List.mem_append_right _ (List.mem_cons_of_mem _ hmem))

/-- On one line, the value of a field is found whenever the field is started. -/
theorem not_startsField_of_weightValue? (hnone : weightValue? text = none) :
    ¬ StartsField weightKeyword text := by
  rw [← fieldValue?_eq_none_iff]
  cases hvalue : fieldValue? weightKeyword text with
  | none => rfl
  | some value =>
    have hstart : '\n' ∉ trimStart value :=
      fun hmem ↦ notMem_fieldValue? hline hvalue (List.dropWhile_subset isSpace hmem)
    rw [weightValue?, hvalue, Option.bind_some] at hnone
    simp [hstart] at hnone

theorem not_startsField_of_componentsValue? (hnone : componentsValue? text = none) :
    ¬ StartsField componentsKeyword text := by
  rw [← fieldValue?_eq_none_iff]
  cases hvalue : fieldValue? componentsKeyword text with
  | none => rfl
  | some value =>
    have hkept : '\n' ∉ value := notMem_fieldValue? hline hvalue
    rw [componentsValue?, hvalue, Option.bind_some] at hnone
    simp [hkept] at hnone

end OneLine

/-! ### Labels -/

/-- A text that begins solid has a label before white space. -/
theorem exists_labelBefore? {name space rest : List Char} (hne : name ≠ []) (hspace : space ≠ [])
    (hspaces : ∀ c ∈ space, isSpace c = true) (hbegins : BeginsSolid (name ++ rest))
    (hline : '\n' ∉ name) : ∃ label, labelBefore? (name ++ space) = some label := by
  obtain ⟨gap, hsplit, hgap⟩ := exists_trimEnd_append name
  refine ⟨String.ofList (trimEnd name), labelBefore?_eq_some_iff.mpr ?_⟩
  rw [String.toList_ofList]
  refine ⟨?_, endsSolid_trimEnd name, ?_, gap ++ space, ?_, ?_, ?_⟩
  · intro hnil
    rw [hnil, List.nil_append] at hsplit
    obtain ⟨c, others, rfl⟩ := List.exists_cons_of_ne_nil hne
    have hsolid : isSpace c = false := beginsSolid_of_append hbegins c rfl
    rw [hgap c (hsplit ▸ List.mem_cons_self)] at hsolid
    exact Bool.noConfusion hsolid
  · intro hmem
    rw [hsplit] at hline
    exact hline (List.mem_append_left gap hmem)
  · rw [← List.append_assoc, ← hsplit]
  · exact List.append_ne_nil_of_right_ne_nil gap hspace
  · intro c hc
    exact (List.mem_append.mp hc).elim (hgap c) (hspaces c)

section

variable {text : List Char} (hbegins : BeginsSolid text) (hline : '\n' ∉ text)
include hbegins hline

theorem exists_codepointLabel? (hends : EndsInCodepoint text) :
    ∃ found, codepointLabel? text = some found := by
  obtain ⟨name, space, numeral, rfl, hne, hspace, hspaces, hdigits, hleast, hmost⟩ := hends
  simp only [List.append_assoc] at hbegins
  obtain ⟨label, hlabel⟩ := exists_labelBefore? hne hspace hspaces hbegins fun hmem ↦
    hline (by simp [hmem])
  exact ⟨(label, Hexadecimal.value numeral), codepointLabel?_eq_some_iff.mpr
    ⟨name ++ space, numeral, rfl, hlabel, hdigits, hleast, hmost, rfl⟩⟩

theorem exists_ligatureLabel? (hends : EndsInLigature text) :
    ∃ label, ligatureLabel? text = some label := by
  obtain ⟨name, space, mark, rfl, hne, hspace, hspaces, hmark⟩ := hends
  rw [List.append_assoc] at hbegins
  obtain ⟨label, hlabel⟩ := exists_labelBefore? hne hspace hspaces hbegins fun hmem ↦
    hline (by simp [hmem])
  exact ⟨label, ligatureLabel?_eq_some_iff.mpr ⟨name ++ space, mark, rfl, hlabel, hmark⟩⟩

end

/-- What is known of a field that was read from a line. -/
def IsRead : HeaderField → Prop
  | .blank => True
  | .weight _ => True
  | .components labels => AreWords labels
  | .label name mark =>
    IsHeaderLabel name ∧
      (mark = .none → ¬ EndsInCodepoint name.toList ∧ ¬ EndsInLigature name.toList) ∧
      ∀ codepoint, mark = .codepoint codepoint → codepoint ≤ 0xFFFFFF

/-- The beginning of the text of a label line is a label of a header if it ends solid. -/
theorem isHeaderLabel_of_append {label : String} {rest : List Char} (hne : label.toList ≠ [])
    (hends : EndsSolid label.toList) (hline : '\n' ∉ label.toList)
    (hbegins : BeginsSolid (label.toList ++ rest))
    (hweight : ¬ StartsField weightKeyword (label.toList ++ rest))
    (hcomponents : ¬ StartsField componentsKeyword (label.toList ++ rest)) :
    IsHeaderLabel label where
  ne_empty := fun hempty ↦ hne (String.toList_eq_nil_iff.mpr hempty)
  trim_eq := trim_eq_self_iff.mpr ⟨beginsSolid_of_append hbegins, hends⟩
  one_line := hline
  no_weight := fun hstarts ↦ hweight (hstarts.append rest)
  no_components := fun hstarts ↦ hcomponents (hstarts.append rest)

/-- The label of a line that starts no field is a label of a header. -/
theorem isRead_labelOf {text : List Char} (hne : text ≠ []) (htrim : trim text = text)
    (hline : '\n' ∉ text) (hweight : ¬ StartsField weightKeyword text)
    (hcomponents : ¬ StartsField componentsKeyword text) : (labelOf text).IsRead := by
  obtain ⟨hbegins, hends⟩ := trim_eq_self_iff.mp htrim
  unfold labelOf
  cases hcodepoint : codepointLabel? text with
  | some found =>
    obtain ⟨label, codepoint⟩ := found
    obtain ⟨front, numeral, rfl, hlabel, hdigits, hleast, hmost, rfl⟩ :=
      codepointLabel?_eq_some_iff.mp hcodepoint
    obtain ⟨hname, hsolid, hone, space, rfl, -, -⟩ := labelBefore?_eq_some_iff.mp hlabel
    simp only [List.append_assoc] at hbegins hweight hcomponents
    refine ⟨isHeaderLabel_of_append hname hsolid hone hbegins hweight hcomponents, nofun, ?_⟩
    intro codepoint hsame
    have hvalue := Hexadecimal.value_lt numeral
    have hpower : 16 ^ numeral.length ≤ 16 ^ 6 := Nat.pow_le_pow_right (by decide) hmost
    rw [← LabelMark.codepoint.inj hsame]
    omega
  | none =>
    cases hligature : ligatureLabel? text with
    | some label =>
      obtain ⟨front, mark, rfl, hlabel, hmark⟩ := ligatureLabel?_eq_some_iff.mp hligature
      obtain ⟨hname, hsolid, hone, space, rfl, -, -⟩ := labelBefore?_eq_some_iff.mp hlabel
      rw [List.append_assoc] at hbegins hweight hcomponents
      exact ⟨isHeaderLabel_of_append hname hsolid hone hbegins hweight hcomponents, nofun, nofun⟩
    | none =>
      have htext : (String.ofList text).toList = text := String.toList_ofList
      refine ⟨?_, fun _ ↦ ⟨?_, ?_⟩, nofun⟩
      · rw [← List.append_nil text] at hbegins hweight hcomponents
        rw [← htext] at hne hends hline hbegins hweight hcomponents
        exact isHeaderLabel_of_append hne hends hline hbegins hweight hcomponents
      · rw [htext]
        intro hends
        obtain ⟨found, hfound⟩ := exists_codepointLabel? hbegins hline hends
        exact absurd (hcodepoint.symm.trans hfound) nofun
      · rw [htext]
        intro hends
        obtain ⟨found, hfound⟩ := exists_ligatureLabel? hbegins hline hends
        exact absurd (hligature.symm.trans hfound) nofun

/-- A field that is read from a text of one line was read as fields are. -/
theorem isRead_of_ofLine {line : List Char} {field : HeaderField} (hline : '\n' ∉ line)
    (hfield : ofLine line = .ok field) : field.IsRead := by
  have hone : '\n' ∉ content line := fun hmem ↦ hline (mem_of_mem_content hmem)
  have htrim := trim_content line
  unfold ofLine at hfield
  generalize content line = text at hfield hone htrim
  unfold ofContent at hfield
  split at hfield
  · rw [← Except.ok.inj hfield]
    trivial
  rename_i hne
  split at hfield
  · split at hfield
    · rw [← Except.ok.inj hfield]
      trivial
    · exact absurd hfield nofun
  rename_i hweight
  split at hfield
  · split at hfield
    · exact absurd hfield nofun
    · rename_i value _ _ hlabels
      rw [← Except.ok.inj hfield]
      refine ⟨fun hnil ↦ hlabels (List.map_eq_nil_iff.mp hnil), List.forall_mem_map.mpr ?_⟩
      intro word hword
      obtain ⟨hne, hsolid⟩ := solid_of_mem_words hword
      rw [ne_eq, ← String.toList_eq_nil_iff, String.toList_ofList]
      exact ⟨hne, hsolid⟩
  · rename_i hcomponents
    rw [← Except.ok.inj hfield]
    exact isRead_labelOf (by simpa using hne) htrim hone
      (not_startsField_of_weightValue? hone hweight)
      (not_startsField_of_componentsValue? hone hcomponents)

end HeaderField

/-- A label that is read as itself bears no mark and does not look as if it did. -/
theorem IsHeaderLabel.unmarked_of_labelOf_eq {label : String} (hlabel : IsHeaderLabel label)
    {mark : LabelMark} (hsame : HeaderField.labelOf label.toList = .label label mark) :
    mark = .none ∧ ¬ HeaderField.EndsInCodepoint label.toList ∧
      ¬ HeaderField.EndsInLigature label.toList := by
  obtain rfl : mark = .none := by
    refine HeaderField.eq_none_of_labelOf_eq (hsame.trans ?_)
    rw [String.ofList_toList]
  have hread := HeaderField.isRead_labelOf hlabel.toList_ne_nil hlabel.trim_eq hlabel.one_line
    hlabel.no_weight hlabel.no_components
  rw [hsame] at hread
  exact ⟨rfl, hread.2.1 rfl⟩

/-! ### Fields -/

namespace HeaderFields

/-- What is known of fields that were read from lines. -/
structure AreRead (fields : HeaderFields) : Prop where
  label : ∀ label mark, fields.label = some (label, mark) → (HeaderField.label label mark).IsRead
  components : ∀ labels ∈ fields.components, AreWords labels

/-- A field that was read joins fields that were read. -/
theorem AreRead.add {fields next : HeaderFields} (hfields : fields.AreRead) {field : HeaderField}
    (hfield : field.IsRead) (hadd : fields.add field = .ok next) : next.AreRead := by
  unfold HeaderFields.add at hadd
  split at hadd
  · exact Except.ok.inj hadd ▸ hfields
  · split at hadd
    · exact absurd hadd nofun
    · rw [← Except.ok.inj hadd]
      exact ⟨hfields.label, hfields.components⟩
  · split at hadd
    · exact absurd hadd nofun
    · rw [← Except.ok.inj hadd]
      refine ⟨hfields.label, fun labels hlabels ↦ ?_⟩
      rw [← Option.some.inj hlabels]
      exact hfield
  · split at hadd
    · exact Except.ok.inj hadd ▸ hfields
    · rw [← Except.ok.inj hadd]
      refine ⟨fun label mark hlabel ↦ ?_, hfields.components⟩
      obtain ⟨rfl, rfl⟩ := Prod.mk.inj (Option.some.inj hlabel)
      exact hfield

theorem areRead_of_addLines {fields result : HeaderFields} {lines : List (List Char)}
    (hlines : ∀ line ∈ lines, '\n' ∉ line) (hfields : fields.AreRead)
    (hresult : fields.addLines lines = .ok result) : result.AreRead := by
  induction lines generalizing fields with
  | nil => exact Except.ok.inj hresult ▸ hfields
  | cons line lines ih =>
    rw [List.forall_mem_cons] at hlines
    obtain ⟨field, hfield, next, hnext, hrest⟩ := addLines_cons_eq_ok_iff.mp hresult
    exact ih hlines.2 (hfields.add (HeaderField.isRead_of_ofLine hlines.1 hfield) hnext) hrest

end HeaderFields

/-! ### Glyphs -/

namespace GlyphFile

theorem notMem_lines {text line : List Char} (hline : line ∈ lines text) : '\n' ∉ line := by
  obtain ⟨piece, hpiece, rfl⟩ := List.mem_map.mp hline
  intro hmem
  have hkept : '\n' ∈ piece := by
    unfold dropReturn at hmem
    split at hmem
    · exact List.dropLast_subset _ hmem
    · exact hmem
  exact feed_notMem_splitOn hpiece hkept

/-- A glyph that is read from the sections of a file, with the fields that the header lines give and
the stem of the name of the file. -/
structure IsReading (parts : Sections) (stem : List Char) (fields : HeaderFields) (glyph : Glyph) :
    Prop where
  header : HeaderFields.ofLines parts.header = .ok fields
  label : glyph.label = (fields.label.map Prod.fst).getD (label stem)
  named : fields.label = none → glyph.label ≠ ""
  codepoint : glyph.codepoint = (Header.codepointOf fields stem).map Int.ofNat
  weight : glyph.weight = fields.weight.getD .regular
  components : glyph.components = fields.components
  isLigature : glyph.isLigature = fields.isLigature
  grid : glyph.grid = grid parts.raster

/-- A header is made of fields unless there is no label in them nor in the stem. -/
theorem ofFields_eq_ok_iff {fields : HeaderFields} {stem : List Char} {header : Header} :
    Header.ofFields fields stem = .ok header ↔
      ¬ (fields.label = none ∧ label stem = "") ∧ header = {
        label := (fields.label.map Prod.fst).getD (label stem)
        codepoint := Header.codepointOf fields stem
        weight := fields.weight.getD .regular
        components := fields.components
        kind := if fields.isLigature then .ligature else .standalone } := by
  unfold Header.ofFields
  cases hlabel : fields.label with
  | none => by_cases hempty : label stem = "" <;> simp [hempty, @eq_comm _ header]
  | some found => simp [@eq_comm _ header]

/-- A glyph that is read from a text is read from its sections. -/
theorem exists_isReading {text : List Char} {path : Option Path} {glyph : Glyph}
    (hparse : parse text path = .ok glyph) :
    ∃ fields, IsReading (sections text) (Header.stemOf path) fields glyph := by
  simp only [parse, Header.ofLines, Traversal.bind_eq_ok_iff] at hparse
  obtain ⟨header, ⟨fields, hheader, hfields⟩, hglyph⟩ := hparse
  obtain ⟨hnamed, rfl⟩ := ofFields_eq_ok_iff.mp hfields
  obtain rfl := Except.ok.inj hglyph
  refine ⟨fields, hheader, rfl, fun hnone hempty ↦ ?_, rfl, rfl, rfl, ?_, rfl⟩
  · dsimp only at hempty
    rw [hnone] at hempty
    exact hnamed ⟨hnone, hempty⟩
  · show ((if fields.isLigature then GlyphKind.ligature else .standalone) == .ligature) = _
    cases fields.isLigature <;> rfl

/-- A text is read as a glyph if its header lines give fields, and a label is found in one of them
or in the name of the file. -/
theorem exists_parse {text : List Char} {path : Option Path} {fields : HeaderFields}
    (hheader : HeaderFields.ofLines (sections text).header = .ok fields)
    (hnamed : ¬ (fields.label = none ∧ label (Header.stemOf path) = "")) :
    ∃ glyph, parse text path = .ok glyph ∧
      IsReading (sections text) (Header.stemOf path) fields glyph := by
  have hfields := ofFields_eq_ok_iff.mpr ⟨hnamed, rfl⟩
  obtain ⟨glyph, hglyph⟩ : ∃ glyph, parse text path = .ok glyph := by
    simp only [parse, Header.ofLines, Traversal.bind_eq_ok_iff]
    exact ⟨_, _, ⟨fields, hheader, hfields⟩, rfl⟩
  obtain ⟨found, hreading⟩ := exists_isReading hglyph
  obtain rfl := Except.ok.inj (hheader.symm.trans hreading.header)
  exact ⟨glyph, hglyph, hreading⟩

theorem notMem_header {text line : List Char} (hline : line ∈ (sections text).header) :
    '\n' ∉ line := by
  rw [sections, sectionsOfLines_eq] at hline
  have hkept : line ∈ (lines text).rdropWhile isBlank :=
    List.takeWhile_subset isOpening (List.mem_of_mem_filter hline)
  exact notMem_lines ((List.rdropWhile_prefix isBlank (lines text)).subset hkept)

theorem codepoint?_le {stem : List Char} {codepoint : ℕ}
    (hcodepoint : codepoint? stem = some codepoint) : codepoint ≤ 0xFFFFFF := by
  obtain ⟨numeral, rest, -, -, hmost, rfl⟩ := codepoint?_eq_some_iff.mp hcodepoint
  have hlt := Hexadecimal.value_lt numeral
  have hpower : 16 ^ numeral.length ≤ 16 ^ 6 := Nat.pow_le_pow_right (by decide) hmost
  omega

namespace IsReading

variable {text stem : List Char} {fields : HeaderFields} {glyph : Glyph}
  (hreading : IsReading (sections text) stem fields glyph)
include hreading

theorem areRead : fields.AreRead :=
  HeaderFields.areRead_of_addLines (fun _ ↦ notMem_header)
    ⟨fun _ _ hlabel ↦ absurd hlabel.symm (Option.some_ne_none _),
      fun _ hlabels ↦ absurd hlabels (Option.not_mem_none _)⟩
    hreading.header

theorem areWords : ∀ labels ∈ glyph.components, AreWords labels := by
  rw [hreading.components]
  exact hreading.areRead.components

/-- A glyph that is no ligature has no components. -/
theorem components_eq_none (hkind : glyph.isLigature = false) : glyph.components = none := by
  rw [hreading.isLigature, HeaderFields.isLigature, Bool.or_eq_false_iff] at hkind
  rw [hreading.components]
  exact Option.isSome_eq_false_iff.mp hkind.1 |> Option.isNone_iff_eq_none.mp

theorem codepoint_mem : ∀ codepoint ∈ glyph.codepoint, 0 ≤ codepoint ∧ codepoint ≤ 0xFFFFFF := by
  intro codepoint hmem
  rw [hreading.codepoint, Option.mem_def, Option.map_eq_some_iff] at hmem
  obtain ⟨number, hnumber, rfl⟩ := hmem
  refine ⟨Int.natCast_nonneg number, ?_⟩
  suffices number ≤ 0xFFFFFF by
    show (number : Int) ≤ 0xFFFFFF
    omega
  unfold Header.codepointOf Header.markedCodepoint? at hnumber
  split at hnumber
  · rename_i found hfound
    obtain rfl := Option.some.inj hnumber
    split at hfound
    · rename_i label number hlabel
      obtain rfl := Option.some.inj hfound
      exact (hreading.areRead.label _ _ hlabel).2.2 _ rfl
    · exact absurd hfound nofun
  · split at hnumber
    · exact absurd hnumber nofun
    · exact codepoint?_le hnumber

theorem codepoint_nonneg : ∀ codepoint ∈ glyph.codepoint, 0 ≤ codepoint :=
  fun codepoint hmem ↦ (hreading.codepoint_mem codepoint hmem).1

/-- A label that a header line gives may be written in one again. -/
theorem isHeaderLabel (hlabel : fields.label ≠ none) : IsHeaderLabel glyph.label := by
  obtain ⟨⟨name, mark⟩, hsome⟩ := Option.ne_none_iff_exists'.mp hlabel
  rw [hreading.label, hsome]
  exact (hreading.areRead.label name mark hsome).1

theorem first_row_ne_nil : ∀ row ∈ glyph.grid.head?, row ≠ [] := by
  intro row hrow hnil
  rw [hreading.grid, GlyphFile.grid, List.head?_map] at hrow
  obtain ⟨line, hline, rfl⟩ := Option.map_eq_some_iff.mp hrow
  obtain rfl : line = [] := List.map_eq_nil_iff.mp hnil
  exact absurd (isOpening_head?_raster _ _ hline) (by decide)

theorem last_row_ne_nil : ∀ row ∈ glyph.grid.getLast?, row ≠ [] := by
  intro row hrow hnil
  rw [hreading.grid, GlyphFile.grid, List.getLast?_map] at hrow
  obtain ⟨line, hline, rfl⟩ := Option.map_eq_some_iff.mp hrow
  obtain rfl : line = [] := List.map_eq_nil_iff.mp hnil
  exact absurd (isBlank_getLast?_raster _ _ hline) (by decide)

end IsReading

end GlyphFile

end PixelFont
