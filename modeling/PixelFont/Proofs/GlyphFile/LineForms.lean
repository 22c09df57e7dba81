import PixelFont.Proofs.GlyphFile.HeaderLine

/-!
The forms of header lines, stated without the reader. Behind its comment mark a line gives the
weight (`IsWeightLine`) or the components (`IsComponentsLine`) if it begins as a field of these
does; if it is not blank and gives neither, it gives a label (`IsLabelLine`), with a codepoint, the
mark of a ligature or nothing behind it (`IsLabelOf`). A line is of one form only, and the reader
finds in it what it gives (`ofLine_eq_ok_iff`) unless it names no weight or lists no component
(`exists_ofLine_eq_error_iff`).
-/

set_option autoImplicit false

namespace PixelFont

open Text

/-- Whether a text names a weight, in any case. -/
def Weight.IsNamedBy (weight : Weight) (value : List Char) : Prop :=
  isKeyword weight.name.toList value = true

/-- A text names one weight at most. -/
theorem Weight.IsNamedBy.unique {weight other : Weight} {value : List Char}
    (hweight : weight.IsNamedBy value) (hother : other.IsNamedBy value) : weight = other := by
  have hlength := (HeaderField.length_of_isKeyword hweight).symm.trans
    (HeaderField.length_of_isKeyword hother)
  cases weight <;> cases other <;> first | rfl | exact absurd hlength (by decide)

namespace HeaderField

/-! ### Fields -/

/-- Whether a text is a field: its keyword in any case, white space or none, a colon and what stands
behind it. -/
def IsField (keyword text behind : List Char) : Prop :=
  ∃ word space, text = word ++ space ++ ':' :: behind ∧ isKeyword keyword word = true ∧
    ∀ c ∈ space, isSpace c = true

/-- Whether a line gives the weight by a value, which stands on one line. -/
def IsWeightLine (line value : List Char) : Prop :=
  ∃ behind, IsField "weight".toList (content line) behind ∧ '\n' ∉ trimStart behind ∧
    value = trim behind

/-- Whether a line gives components by their labels, which stand on one line. -/
def IsComponentsLine (line : List Char) (labels : List String) : Prop :=
  ∃ behind, IsField "components".toList (content line) behind ∧ '\n' ∉ behind ∧
    labels = (words behind).map String.ofList

/-- Whether a line gives a label: it is not blank and gives neither the weight nor components. -/
def IsLabelLine (line : List Char) : Prop :=
  content line ≠ [] ∧ (∀ value, ¬ IsWeightLine line value) ∧
    ∀ labels, ¬ IsComponentsLine line labels

section Fields

variable {line value : List Char} {labels : List String} {weight : Weight}

theorem weightValue?_content_eq_some_iff :
    weightValue? (content line) = some value ↔ IsWeightLine line value := by
  rw [weightValue?, Option.bind_eq_some_iff]
  refine exists_congr fun behind ↦ and_congr fieldValue?_eq_some_iff ?_
  by_cases hfeed : '\n' ∈ trimStart behind
  · simp [hfeed]
  · simp [hfeed, trim, eq_comm]

theorem weightValue?_content_eq_none_iff :
    weightValue? (content line) = none ↔ ∀ value, ¬ IsWeightLine line value := by
  simp only [Option.eq_none_iff_forall_ne_some, ne_eq, weightValue?_content_eq_some_iff]

theorem componentsValue?_content_eq_some_iff {behind : List Char} :
    componentsValue? (content line) = some behind ↔
      IsField "components".toList (content line) behind ∧ '\n' ∉ behind := by
  rw [componentsValue?, Option.bind_eq_some_iff]
  constructor
  · rintro ⟨found, hfound, hkept⟩
    split at hkept
    · exact absurd hkept.symm (Option.some_ne_none behind)
    · rename_i hfeed
      obtain rfl := Option.some.inj hkept
      exact ⟨fieldValue?_eq_some_iff.mp hfound, by simpa using hfeed⟩
  · rintro ⟨hfield, hfeed⟩
    exact ⟨behind, fieldValue?_eq_some_iff.mpr hfield, by simp [hfeed]⟩

theorem isComponentsLine_iff :
    IsComponentsLine line labels ↔ ∃ behind, componentsValue? (content line) = some behind ∧
      labels = (words behind).map String.ofList := by
  simp only [IsComponentsLine, componentsValue?_content_eq_some_iff, and_assoc]

theorem componentsValue?_content_eq_none_iff :
    componentsValue? (content line) = none ↔ ∀ labels, ¬ IsComponentsLine line labels := by
  simp only [isComponentsLine_iff, Option.eq_none_iff_forall_ne_some]
  constructor
  · rintro hnone labels ⟨behind, hbehind, -⟩
    exact hnone behind hbehind
  · intro hnone behind hbehind
    exact hnone _ ⟨behind, hbehind, rfl⟩

theorem weightNamed?_eq_some_iff : weightNamed? value = some weight ↔ weight.IsNamedBy value := by
  unfold weightNamed?
  constructor
  · intro hnamed
    split at hnamed
    · exact Option.some.inj hnamed ▸ ‹_›
    · split at hnamed
      · exact Option.some.inj hnamed ▸ ‹_›
      · exact absurd hnamed nofun
  · intro hweight
    split
    · rename_i hregular
      rw [hweight.unique (show Weight.regular.IsNamedBy value from hregular)]
    · rename_i hregular
      cases weight with
      | regular => exact absurd hweight hregular
      | bold => exact if_pos hweight

/-- A keyword begins with a case of its first letter. -/
theorem isCaseOf_of_isKeyword {letter c : Char} {keyword word : List Char}
    (hword : isKeyword (letter :: keyword) (c :: word) = true) : isCaseOf letter c = true := by
  rw [isKeyword, dropKeyword?] at hword
  split at hword
  · assumption
  · exact absurd hword (by simp)

/-- A text is a field of one keyword only if the keywords begin with different letters. -/
theorem not_isField_of_isField {letter other : Char} {keyword others text behind rest : List Char}
    (hletters : ∀ c, isCaseOf letter c = true → isCaseOf other c = false)
    (hfield : IsField (letter :: keyword) text behind) :
    ¬ IsField (other :: others) text rest := by
  rintro ⟨second, gap, htext, hsecond, -⟩
  obtain ⟨first, space, rfl, hfirst, -⟩ := hfield
  cases first with
  | nil => simp [isKeyword, dropKeyword?] at hfirst
  | cons c first =>
    cases second with
    | nil => simp [isKeyword, dropKeyword?] at hsecond
    | cons d second =>
      obtain rfl : c = d := (List.cons.inj htext).1
      have hcase := hletters c (isCaseOf_of_isKeyword hfirst)
      rw [isCaseOf_of_isKeyword hsecond] at hcase
      exact Bool.noConfusion hcase

theorem not_isComponentsLine_of_isWeightLine (hweight : IsWeightLine line value) :
    ¬ IsComponentsLine line labels := by
  rintro ⟨behind, hcomponents, -, -⟩
  obtain ⟨rest, hfield, -, -⟩ := hweight
  change IsField ('w' :: "eight".toList) (content line) rest at hfield
  change IsField ('c' :: "omponents".toList) (content line) behind at hcomponents
  refine not_isField_of_isField (fun c hc ↦ ?_) hfield hcomponents
  have hletter : c.toLower = 'w' := by simpa [isCaseOf] using hc
  simp [isCaseOf, hletter]

theorem content_ne_nil_of_isWeightLine (hweight : IsWeightLine line value) :
    content line ≠ [] := by
  obtain ⟨behind, ⟨word, space, htext, -, -⟩, -, -⟩ := hweight
  simp [htext]

theorem content_ne_nil_of_isComponentsLine (hcomponents : IsComponentsLine line labels) :
    content line ≠ [] := by
  obtain ⟨behind, ⟨word, space, htext, -, -⟩, -, -⟩ := hcomponents
  simp [htext]

end Fields

/-! ### Labels -/

/-- Whether a text is a label, on one line and with white space behind it, and then a mark. -/
def IsMarked (text : List Char) (label : String) (mark : List Char) : Prop :=
  ∃ space, text = label.toList ++ space ++ mark ∧ label.toList ≠ [] ∧ EndsSolid label.toList ∧
    '\n' ∉ label.toList ∧ space ≠ [] ∧ ∀ c ∈ space, isSpace c = true

/-- Whether a text is a label and then a codepoint in parentheses, in four to six digits. -/
def GivesCodepoint (text : List Char) (label : String) (codepoint : ℕ) : Prop :=
  ∃ numeral, IsMarked text label ("(U+".toList ++ numeral ++ [')']) ∧
    (∀ c ∈ numeral, Hexadecimal.isDigit c = true) ∧ 4 ≤ numeral.length ∧ numeral.length ≤ 6 ∧
    codepoint = Hexadecimal.value numeral

/-- Whether a text is a label and then the mark of a ligature, in any case. -/
def GivesLigature (text : List Char) (label : String) : Prop :=
  ∃ mark, IsMarked text label mark ∧ isKeyword "(ligature)".toList mark = true

/-- The label of a text and what follows it: a codepoint, the mark of a ligature, or nothing. -/
inductive IsLabelOf (text : List Char) : String → LabelMark → Prop where
  | codepoint {label : String} {codepoint : ℕ} (hgives : GivesCodepoint text label codepoint) :
    IsLabelOf text label (.codepoint codepoint)
  | ligature {label : String} (hplain : ∀ label codepoint, ¬ GivesCodepoint text label codepoint)
      (hgives : GivesLigature text label) : IsLabelOf text label .ligature
  | plain (hcodepoint : ∀ label codepoint, ¬ GivesCodepoint text label codepoint)
      (hligature : ∀ label, ¬ GivesLigature text label) :
    IsLabelOf text (String.ofList text) .none

section Labels

variable {line text : List Char} {label : String} {mark : LabelMark} {codepoint : ℕ}

theorem isMarked_iff {word : List Char} :
    IsMarked text label word ↔ ∃ front, text = front ++ word ∧ labelBefore? front = some label := by
  simp only [labelBefore?_eq_some_iff, IsMarked]
  constructor
  · rintro ⟨space, htext, hne, hends, hline, hspace⟩
    exact ⟨label.toList ++ space, htext, hne, hends, hline, space, rfl, hspace⟩
  · rintro ⟨front, htext, hne, hends, hline, space, rfl, hspace⟩
    exact ⟨space, htext, hne, hends, hline, hspace⟩

theorem codepointLabel?_eq_some_iff_givesCodepoint :
    codepointLabel? text = some (label, codepoint) ↔ GivesCodepoint text label codepoint := by
  simp only [codepointLabel?_eq_some_iff, GivesCodepoint, isMarked_iff, List.append_assoc]
  constructor
  · rintro ⟨front, numeral, htext, hlabel, hnumeral⟩
    exact ⟨numeral, ⟨front, htext, hlabel⟩, hnumeral⟩
  · rintro ⟨numeral, ⟨front, htext, hlabel⟩, hnumeral⟩
    exact ⟨front, numeral, htext, hlabel, hnumeral⟩

theorem ligatureLabel?_eq_some_iff_givesLigature :
    ligatureLabel? text = some label ↔ GivesLigature text label := by
  simp only [ligatureLabel?_eq_some_iff, GivesLigature, isMarked_iff]
  constructor
  · rintro ⟨front, mark, htext, hlabel, hmark⟩
    exact ⟨mark, ⟨front, htext, hlabel⟩, hmark⟩
  · rintro ⟨mark, ⟨front, htext, hlabel⟩, hmark⟩
    exact ⟨front, mark, htext, hlabel, hmark⟩

theorem codepointLabel?_eq_none_iff :
    codepointLabel? text = none ↔ ∀ label codepoint, ¬ GivesCodepoint text label codepoint := by
  simp only [Option.eq_none_iff_forall_ne_some, Prod.forall, ne_eq,
    codepointLabel?_eq_some_iff_givesCodepoint]

theorem ligatureLabel?_eq_none_iff :
    ligatureLabel? text = none ↔ ∀ label, ¬ GivesLigature text label := by
  simp only [Option.eq_none_iff_forall_ne_some, ne_eq, ligatureLabel?_eq_some_iff_givesLigature]

/-- The reader finds the label of a text and its mark. -/
theorem labelOf_eq_iff : labelOf text = .label label mark ↔ IsLabelOf text label mark := by
  constructor
  · intro hlabel
    unfold labelOf at hlabel
    split at hlabel
    · rename_i hcodepoint
      obtain ⟨rfl, rfl⟩ := HeaderField.label.inj hlabel
      exact .codepoint (codepointLabel?_eq_some_iff_givesCodepoint.mp hcodepoint)
    · rename_i hcodepoint
      have hplain := codepointLabel?_eq_none_iff.mp hcodepoint
      split at hlabel
      · rename_i hligature
        obtain ⟨rfl, rfl⟩ := HeaderField.label.inj hlabel
        exact .ligature hplain (ligatureLabel?_eq_some_iff_givesLigature.mp hligature)
      · rename_i hligature
        obtain ⟨rfl, rfl⟩ := HeaderField.label.inj hlabel
        exact .plain hplain (ligatureLabel?_eq_none_iff.mp hligature)
  · intro hlabel
    cases hlabel with
    | codepoint hgives => rw [labelOf, codepointLabel?_eq_some_iff_givesCodepoint.mpr hgives]
    | ligature hplain hgives =>
      rw [labelOf, codepointLabel?_eq_none_iff.mpr hplain,
        ligatureLabel?_eq_some_iff_givesLigature.mpr hgives]
    | plain hcodepoint hligature =>
      rw [labelOf, codepointLabel?_eq_none_iff.mpr hcodepoint,
        ligatureLabel?_eq_none_iff.mpr hligature]

end Labels

/-! ### Lines -/

/-- What a header line gives. -/
inductive Gives (line : List Char) : HeaderField → Prop where
  | blank (hblank : content line = []) : Gives line .blank
  | weight {value : List Char} {weight : Weight} (hline : IsWeightLine line value)
      (hnamed : weight.IsNamedBy value) : Gives line (.weight weight)
  | components {labels : List String} (hline : IsComponentsLine line labels) (hne : labels ≠ []) :
    Gives line (.components labels)
  | label {label : String} {mark : LabelMark} (hline : IsLabelLine line)
      (hlabel : IsLabelOf (content line) label mark) : Gives line (.label label mark)

/-- What is wrong with a header line: it gives the weight by a value that names none, or it lists no
component. -/
inductive IsFaulty (line : List Char) : Prop where
  | unknownWeight {value : List Char} (hline : IsWeightLine line value)
      (hunknown : ∀ weight : Weight, ¬ weight.IsNamedBy value)
  | noComponents (hline : IsComponentsLine line [])

section Lines

variable {line value : List Char} {labels : List String} {field : HeaderField}

theorem forms_of_line (line : List Char) :
    content line = [] ∨ (∃ value, IsWeightLine line value) ∨
      (∃ labels, IsComponentsLine line labels) ∨ IsLabelLine line := by
  by_cases hblank : content line = []
  · exact .inl hblank
  by_cases hweight : ∃ value, IsWeightLine line value
  · exact .inr (.inl hweight)
  by_cases hcomponents : ∃ labels, IsComponentsLine line labels
  · exact .inr (.inr (.inl hcomponents))
  · exact .inr (.inr (.inr ⟨hblank, not_exists.mp hweight, not_exists.mp hcomponents⟩))

theorem ofLine_of_content_eq_nil (hblank : content line = []) : ofLine line = .ok .blank := by
  rw [ofLine, ofContent, hblank]
  rfl

theorem ofLine_of_isWeightLine (hline : IsWeightLine line value) :
    ofLine line = match weightNamed? value with
      | some named => .ok (.weight named)
      | none => .error (.unknownWeight value) := by
  have hne := content_ne_nil_of_isWeightLine hline
  have hvalue := weightValue?_content_eq_some_iff.mpr hline
  cases hnamed : weightNamed? value <;> simp [ofLine, ofContent, hne, hvalue, hnamed]

theorem ofLine_of_isComponentsLine (hline : IsComponentsLine line labels) :
    ofLine line = if labels = [] then .error .noComponents else .ok (.components labels) := by
  have hne : ¬ (content line).isEmpty := by simpa using content_ne_nil_of_isComponentsLine hline
  have hweight : weightValue? (content line) = none :=
    weightValue?_content_eq_none_iff.mpr fun _ hweight ↦
      not_isComponentsLine_of_isWeightLine hweight hline
  obtain ⟨behind, hbehind, rfl⟩ := isComponentsLine_iff.mp hline
  rw [ofLine, ofContent, if_neg hne, hweight, hbehind]
  cases hwords : words behind with
  | nil => simp [hwords]
  | cons word others => simp [hwords]

theorem ofLine_of_isLabelLine (hline : IsLabelLine line) :
    ofLine line = .ok (labelOf (content line)) := by
  obtain ⟨hne, hweight, hcomponents⟩ := hline
  rw [ofLine, ofContent, if_neg (by simpa using hne),
    weightValue?_content_eq_none_iff.mpr hweight,
    componentsValue?_content_eq_none_iff.mpr hcomponents]

/-- The reader finds in a line what it gives. -/
theorem ofLine_eq_ok_iff : ofLine line = .ok field ↔ Gives line field := by
  constructor
  · intro hfield
    obtain hblank | ⟨value, hline⟩ | ⟨labels, hline⟩ | hline := forms_of_line line
    · rw [ofLine_of_content_eq_nil hblank] at hfield
      exact Except.ok.inj hfield ▸ .blank hblank
    · rw [ofLine_of_isWeightLine hline] at hfield
      split at hfield
      · rename_i hnamed
        exact Except.ok.inj hfield ▸ .weight hline (weightNamed?_eq_some_iff.mp hnamed)
      · exact absurd hfield nofun
    · rw [ofLine_of_isComponentsLine hline] at hfield
      split at hfield
      · exact absurd hfield nofun
      · rename_i hne
        exact Except.ok.inj hfield ▸ .components hline hne
    · rw [ofLine_of_isLabelLine hline] at hfield
      obtain ⟨label, mark, hlabel⟩ := exists_labelOf_eq (content line)
      rw [hlabel] at hfield
      exact Except.ok.inj hfield ▸ .label hline (labelOf_eq_iff.mp hlabel)
  · intro hgives
    cases hgives with
    | blank hblank => exact ofLine_of_content_eq_nil hblank
    | weight hline hnamed => rw [ofLine_of_isWeightLine hline, weightNamed?_eq_some_iff.mpr hnamed]
    | components hline hne => rw [ofLine_of_isComponentsLine hline, if_neg hne]
    | label hline hlabel => rw [ofLine_of_isLabelLine hline, labelOf_eq_iff.mpr hlabel]

/-- The reader refuses the lines that are at fault. -/
theorem exists_ofLine_eq_error_iff : (∃ fault, ofLine line = .error fault) ↔ IsFaulty line := by
  constructor
  · rintro ⟨fault, hfault⟩
    obtain hblank | ⟨value, hline⟩ | ⟨labels, hline⟩ | hline := forms_of_line line
    · rw [ofLine_of_content_eq_nil hblank] at hfault
      exact absurd hfault nofun
    · rw [ofLine_of_isWeightLine hline] at hfault
      split at hfault
      · exact absurd hfault nofun
      · rename_i hunknown
        refine .unknownWeight hline fun weight hnamed ↦ ?_
        rw [weightNamed?_eq_some_iff.mpr hnamed] at hunknown
        exact absurd hunknown nofun
    · rw [ofLine_of_isComponentsLine hline] at hfault
      split at hfault
      · rename_i hnil
        exact .noComponents (hnil ▸ hline)
      · exact absurd hfault nofun
    · rw [ofLine_of_isLabelLine hline] at hfault
      exact absurd hfault nofun
  · intro hfaulty
    cases hfaulty with
    | @unknownWeight value hline hunknown =>
      have hnone : weightNamed? value = none :=
        Option.eq_none_iff_forall_ne_some.mpr fun weight hnamed ↦
          hunknown weight (weightNamed?_eq_some_iff.mp hnamed)
      exact ⟨.unknownWeight value, by rw [ofLine_of_isWeightLine hline, hnone]⟩
    | noComponents hline =>
      exact ⟨.noComponents, by rw [ofLine_of_isComponentsLine hline, if_pos rfl]⟩

instance : DecidablePred IsLabelLine := fun line ↦
  decidable_of_iff (content line ≠ [] ∧ weightValue? (content line) = none ∧
      componentsValue? (content line) = none) <|
    and_congr Iff.rfl
      (and_congr weightValue?_content_eq_none_iff componentsValue?_content_eq_none_iff)

end Lines

end HeaderField

end PixelFont
