import Mathlib.Data.List.Basic
import PixelFont.GlyphFile.Writer
import PixelFont.GlyphFile.Header
import PixelFont.Proofs.Text.Numeral
import PixelFont.Proofs.Text.Trimming

/-!
What single header lines say. A field begins with its keyword in any case and a colon
(`StartsField`), and a label may end in a mark (`EndsInCodepoint`, `EndsInLigature`); both are
stated without the reader. A text that starts no field starts none with a mark behind it
(`not_startsField_append`) and is read as a label, for which exactly the mark written behind it is
found (`labelOf_codepoint`, `labelOf_ligature`, `labelOf_unmarked`).
-/

set_option autoImplicit false

namespace PixelFont

open Text

namespace HeaderField

/-! ### Keywords -/

/-- Whether a text begins as a field does: with the keyword in any case, white space or none, and a
colon. -/
def StartsField (keyword text : List Char) : Prop :=
  ∃ word space value, text = word ++ space ++ ':' :: value ∧ isKeyword keyword word = true ∧
    ∀ c ∈ space, isSpace c = true

theorem dropKeyword?_eq_some_iff {keyword text rest : List Char} :
    dropKeyword? keyword text = some rest ↔
      ∃ word, isKeyword keyword word = true ∧ text = word ++ rest := by
  induction keyword generalizing text with
  | nil =>
    simp only [dropKeyword?, Option.some.injEq, isKeyword, beq_iff_eq]
    constructor
    · rintro rfl
      exact ⟨[], rfl, rfl⟩
    · rintro ⟨word, rfl, rfl⟩
      rfl
  | cons letter keyword ih =>
    cases text with
    | nil =>
      refine iff_of_false (by simp [dropKeyword?]) ?_
      rintro ⟨word, hword, htext⟩
      obtain ⟨rfl, rfl⟩ := List.append_eq_nil_iff.mp htext.symm
      simp [isKeyword, dropKeyword?] at hword
    | cons c text =>
      rw [dropKeyword?]
      by_cases hletter : isCaseOf letter c = true
      · rw [if_pos hletter, ih]
        constructor
        · rintro ⟨word, hword, rfl⟩
          refine ⟨c :: word, ?_, rfl⟩
          rwa [isKeyword, dropKeyword?, if_pos hletter]
        · rintro ⟨word, hword, htext⟩
          cases word with
          | nil => simp [isKeyword, dropKeyword?] at hword
          | cons first word =>
            obtain ⟨rfl, rfl⟩ := List.cons.inj htext
            rw [isKeyword, dropKeyword?, if_pos hletter] at hword
            exact ⟨word, hword, rfl⟩
      · rw [if_neg hletter]
        refine iff_of_false (by simp) ?_
        rintro ⟨word, hword, htext⟩
        cases word with
        | nil => simp [isKeyword, dropKeyword?] at hword
        | cons first word =>
          obtain ⟨rfl, -⟩ := List.cons.inj htext
          rw [isKeyword, dropKeyword?, if_neg hletter] at hword
          simp at hword

/-- A keyword is not continued by what follows a text unless that begins with a letter of it. -/
theorem dropKeyword?_append {keyword suffix : List Char}
    (hsuffix : ∀ letter ∈ keyword, ∀ c ∈ suffix.head?, isCaseOf letter c = false)
    (text : List Char) :
    dropKeyword? keyword (text ++ suffix) = (dropKeyword? keyword text).map (· ++ suffix) := by
  induction keyword generalizing text with
  | nil => rfl
  | cons letter keyword ih =>
    rw [List.forall_mem_cons] at hsuffix
    cases text with
    | nil =>
      cases suffix with
      | nil => rfl
      | cons c rest => simp [dropKeyword?, hsuffix.1 c rfl]
    | cons c text =>
      rw [List.cons_append, dropKeyword?, dropKeyword?]
      split
      · exact ih hsuffix.2 text
      · rfl

/-- Behind white space stands a colon exactly if trimming leaves the colon first. -/
theorem trimStart_eq_colon_iff {text value : List Char} :
    trimStart text = ':' :: value ↔
      ∃ space, text = space ++ ':' :: value ∧ ∀ c ∈ space, isSpace c = true := by
  constructor
  · intro htrim
    refine ⟨text.takeWhile isSpace, ?_, fun c hc ↦ List.mem_takeWhile_imp hc⟩
    rw [← htrim, trimStart, List.takeWhile_append_dropWhile]
  · rintro ⟨space, rfl, hspace⟩
    rw [trimStart, List.dropWhile_append_of_pos hspace]
    rfl

/-- The reader finds the value of a field exactly if it stands behind the keyword and a colon. -/
theorem fieldValue?_eq_some_iff {keyword text value : List Char} :
    fieldValue? keyword text = some value ↔
      ∃ word space, text = word ++ space ++ ':' :: value ∧ isKeyword keyword word = true ∧
        ∀ c ∈ space, isSpace c = true := by
  have hvalue : fieldValue? keyword text = some value ↔
      ∃ rest, dropKeyword? keyword text = some rest ∧ trimStart rest = ':' :: value := by
    unfold fieldValue?
    cases dropKeyword? keyword text with
    | none => simp
    | some rest =>
      simp only [Option.map_some, Option.some.injEq, exists_eq_left']
      split
      · rename_i other heq
        simp [Option.some.inj heq]
      · rename_i hother
        exact iff_of_false (by simp) fun h ↦ hother value (congrArg some h)
  simp only [hvalue, dropKeyword?_eq_some_iff, trimStart_eq_colon_iff]
  constructor
  · rintro ⟨rest, ⟨word, hword, rfl⟩, space, rfl, hspace⟩
    exact ⟨word, space, (List.append_assoc _ _ _).symm, hword, hspace⟩
  · rintro ⟨word, space, rfl, hword, hspace⟩
    exact ⟨space ++ ':' :: value, ⟨word, hword, List.append_assoc _ _ _⟩, space, rfl, hspace⟩

/-- The reader finds no field of a keyword exactly if the text starts none. -/
theorem fieldValue?_eq_none_iff {keyword text : List Char} :
    fieldValue? keyword text = none ↔ ¬ StartsField keyword text := by
  rw [← not_iff_not, not_not, ← ne_eq, Option.ne_none_iff_exists']
  simp only [fieldValue?_eq_some_iff, StartsField]
  constructor
  · rintro ⟨value, word, space, hfield⟩
    exact ⟨word, space, value, hfield⟩
  · rintro ⟨word, space, value, hfield⟩
    exact ⟨value, word, space, hfield⟩

/-- A field that is started goes on with what follows. -/
theorem StartsField.append {keyword text : List Char} (htext : StartsField keyword text)
    (rest : List Char) : StartsField keyword (text ++ rest) := by
  obtain ⟨word, space, value, rfl, hword, hspace⟩ := htext
  exact ⟨word, space, value ++ rest, by simp, hword, hspace⟩

theorem isCaseOf_space {letter : Char} (hletter : letter ≠ ' ') : isCaseOf letter ' ' = false := by
  have hlower : ' '.toLower = ' ' := rfl
  simp [isCaseOf, hlower, hletter.symm]

/-- A field is not started by a mark behind a text that starts none. -/
theorem not_startsField_append {keyword text rest : List Char} (hkeyword : ' ' ∉ keyword)
    (htext : EndsSolid text) (hplain : ¬ StartsField keyword text) :
    ¬ StartsField keyword (text ++ ' ' :: '(' :: rest) := by
  rintro ⟨word, space, value, hsplit, hword, hspace⟩
  have hletters : ∀ letter ∈ keyword, isCaseOf letter ' ' = false :=
    fun letter hletter ↦ isCaseOf_space (ne_of_mem_of_not_mem hletter hkeyword)
  have hdrop : dropKeyword? keyword (text ++ ' ' :: '(' :: rest) = some (space ++ ':' :: value) :=
    dropKeyword?_eq_some_iff.mpr ⟨word, hword, hsplit.trans (List.append_assoc _ _ _)⟩
  rw [dropKeyword?_append (by simpa using hletters), Option.map_eq_some_iff] at hdrop
  obtain ⟨left, hleft, hsame⟩ := hdrop
  obtain ⟨before, hbefore, rfl⟩ := dropKeyword?_eq_some_iff.mp hleft
  have hcolon : trimStart (left ++ ' ' :: '(' :: rest) = ':' :: value :=
    trimStart_eq_colon_iff.mpr ⟨space, hsame, hspace⟩
  by_cases hne : left = []
  · -- Only white space stands before the parenthesis, so that no colon can be there.
    subst hne
    have hparenthesis : trimStart (' ' :: '(' :: rest) = '(' :: rest :=
      trimStart_cons_of_isSpace rfl _
    rw [List.nil_append, hparenthesis] at hcolon
    exact absurd (List.cons.inj hcolon).1 (by decide)
  · have hends : EndsSolid left := (endsSolid_append_iff _ hne).mp htext
    rw [trimStart_append hne hends] at hcolon
    cases htrim : trimStart left with
    | nil => exact trimStart_ne_nil hne hends htrim
    | cons c tail =>
      rw [htrim] at hcolon
      obtain rfl : c = ':' := (List.cons.inj hcolon).1
      obtain ⟨gap, rfl, hgap⟩ := trimStart_eq_colon_iff.mp htrim
      exact hplain ⟨before, gap, tail, (List.append_assoc _ _ _).symm, hbefore, hgap⟩

/-- A text that starts no field is a label with what follows it. -/
theorem ofContent_eq_labelOf {text : List Char} (hne : text ≠ [])
    (hweight : ¬ StartsField weightKeyword text)
    (hcomponents : ¬ StartsField componentsKeyword text) :
    ofContent text = .ok (labelOf text) := by
  have hnoWeight : weightValue? text = none := by
    rw [weightValue?, fieldValue?_eq_none_iff.mpr hweight, Option.bind_none]
  have hnoComponents : componentsValue? text = none := by
    rw [componentsValue?, fieldValue?_eq_none_iff.mpr hcomponents, Option.bind_none]
  rw [ofContent, if_neg (by simpa using hne), hnoWeight, hnoComponents]

/-- The comment mark and the space behind it are taken off a line. -/
theorem content_commented {text : List Char} (htrim : trim text = text) :
    content (commentMark :: ' ' :: text) = text := by
  have hmark : trimStart (commentMark :: ' ' :: text) = commentMark :: ' ' :: text :=
    trimStart_eq_self_iff.mpr (by simp [BeginsSolid, commentMark, isSpace])
  rw [content, hmark]
  show trim (' ' :: text) = text
  rw [trim, trimStart_cons_of_isSpace rfl, ← trim, htrim]

/-! ### Marks behind a label -/

/-- Whether a text ends in a codepoint as it stands behind a label: after white space, in
parentheses, in four to six digits of either case. -/
def EndsInCodepoint (text : List Char) : Prop :=
  ∃ name space numeral, text = name ++ space ++ "(U+".toList ++ numeral ++ [')'] ∧
    name ≠ [] ∧ space ≠ [] ∧ (∀ c ∈ space, isSpace c = true) ∧
    (∀ c ∈ numeral, Hexadecimal.isDigit c = true) ∧ 4 ≤ numeral.length ∧ numeral.length ≤ 6

/-- Whether a text ends in the mark of a ligature as it stands behind a label: after white space,
in any case. -/
def EndsInLigature (text : List Char) : Prop :=
  ∃ name space mark, text = name ++ space ++ mark ∧ name ≠ [] ∧ space ≠ [] ∧
    (∀ c ∈ space, isSpace c = true) ∧ isKeyword ligatureMark mark = true

/-- A label is found before a mark exactly if white space stands behind it. -/
theorem labelBefore?_eq_some_iff {front : List Char} {label : String} :
    labelBefore? front = some label ↔
      label.toList ≠ [] ∧ EndsSolid label.toList ∧ '\n' ∉ label.toList ∧
        ∃ space, front = label.toList ++ space ∧ space ≠ [] ∧ ∀ c ∈ space, isSpace c = true := by
  unfold labelBefore?
  dsimp only
  constructor
  · intro hlabel
    split at hlabel
    · exact absurd hlabel nofun
    · rename_i hname
      simp only [Bool.or_eq_true, List.isEmpty_iff, beq_iff_eq, List.contains_iff_mem,
        not_or] at hname
      obtain ⟨⟨hne, hlength⟩, hline⟩ := hname
      obtain ⟨space, hsplit, hspace⟩ := exists_trimEnd_append front
      rw [← Option.some.inj hlabel, String.toList_ofList]
      refine ⟨hne, endsSolid_trimEnd front, hline, space, hsplit, ?_, hspace⟩
      rintro rfl
      rw [List.append_nil] at hsplit
      exact hlength (congrArg List.length hsplit.symm)
  · rintro ⟨hne, hends, hline, space, rfl, hspace, hspaces⟩
    rw [trimEnd_append_of_forall hends hspaces, String.ofList_toList]
    simp [hne, hline, hspace]

section

variable {front numeral : List Char} (hdigits : ∀ c ∈ numeral, Hexadecimal.isDigit c = true)
include hdigits

/-- What stands in parentheses at the end of a text is read as a codepoint if it is written as
one. -/
theorem codepointLabel?_append (hleast : 4 ≤ numeral.length) (hmost : numeral.length ≤ 6) :
    codepointLabel? (front ++ "(U+".toList ++ numeral ++ [')']) =
      (labelBefore? front).map fun name ↦ (name, Hexadecimal.value numeral) := by
  have hreversed : ∀ c ∈ numeral.reverse, Hexadecimal.isDigit c = true :=
    fun c hc ↦ hdigits c (List.mem_reverse.mp hc)
  have hreverse : (front ++ "(U+".toList ++ numeral ++ [')']).reverse =
      ')' :: (numeral.reverse ++ '+' :: 'U' :: '(' :: front.reverse) := by
    simp
  have hfront : (numeral.reverse ++ '+' :: 'U' :: '(' :: front.reverse).dropWhile
      Hexadecimal.isDigit = '+' :: 'U' :: '(' :: front.reverse := by
    rw [List.dropWhile_append_of_pos hreversed]
    rfl
  have hnumeral : (numeral.reverse ++ '+' :: 'U' :: '(' :: front.reverse).takeWhile
      Hexadecimal.isDigit = numeral.reverse := by
    rw [List.takeWhile_append_of_pos hreversed]
    exact List.append_nil _
  simp only [codepointLabel?, hreverse, hfront, hnumeral, List.length_reverse,
    List.reverse_reverse]
  exact if_pos ⟨hleast, hmost⟩

end

/-- A label with a codepoint is found exactly if the text ends in one behind the label. -/
theorem codepointLabel?_eq_some_iff {text : List Char} {label : String} {codepoint : ℕ} :
    codepointLabel? text = some (label, codepoint) ↔
      ∃ front numeral, text = front ++ "(U+".toList ++ numeral ++ [')'] ∧
        labelBefore? front = some label ∧ (∀ c ∈ numeral, Hexadecimal.isDigit c = true) ∧
        4 ≤ numeral.length ∧ numeral.length ≤ 6 ∧ codepoint = Hexadecimal.value numeral := by
  constructor
  · intro hfound
    unfold codepointLabel? at hfound
    split at hfound
    · rename_i rest hreverse
      dsimp only at hfound
      split at hfound
      · rename_i front hfront
        split at hfound
        · rename_i hlength
          obtain ⟨name, hname, hpair⟩ := Option.map_eq_some_iff.mp hfound
          obtain ⟨rfl, rfl⟩ := Prod.mk.inj hpair
          refine ⟨front.reverse, (rest.takeWhile Hexadecimal.isDigit).reverse, ?_, hname,
            fun c hc ↦ List.mem_takeWhile_imp (List.mem_reverse.mp hc), ?_, ?_, rfl⟩
          · have hrest : rest.takeWhile Hexadecimal.isDigit ++ '+' :: 'U' :: '(' :: front =
                rest := by
              rw [← hfront, List.takeWhile_append_dropWhile]
            rw [List.reverse_eq_iff.mp hreverse]
            conv_lhs => rw [← hrest]
            simp
          · simpa using hlength.1
          · simpa using hlength.2
        · exact absurd hfound nofun
      · exact absurd hfound nofun
    · exact absurd hfound nofun
  · rintro ⟨front, numeral, rfl, hlabel, hdigits, hleast, hmost, rfl⟩
    rw [codepointLabel?_append hdigits hleast hmost, hlabel, Option.map_some]

theorem length_of_isKeyword {keyword word : List Char} (hword : isKeyword keyword word = true) :
    word.length = keyword.length := by
  induction keyword generalizing word with
  | nil => simpa [isKeyword, dropKeyword?] using hword
  | cons letter keyword ih =>
    cases word with
    | nil => simp [isKeyword, dropKeyword?] at hword
    | cons c word =>
      rw [isKeyword, dropKeyword?] at hword
      split at hword
      · rw [List.length_cons, List.length_cons, ih hword]
      · exact absurd hword (by simp)

/-- A keyword holds no character that is no case of one of its letters. -/
theorem notMem_of_isKeyword {keyword word : List Char} {c : Char}
    (hletters : keyword.any (isCaseOf · c) = false)
    (hword : isKeyword keyword word = true) : c ∉ word := by
  induction keyword generalizing word with
  | nil =>
    obtain rfl : word = [] := by simpa [isKeyword, dropKeyword?] using hword
    exact List.not_mem_nil
  | cons letter keyword ih =>
    rw [List.any_cons, Bool.or_eq_false_iff] at hletters
    cases word with
    | nil => exact List.not_mem_nil
    | cons first word =>
      rw [isKeyword, dropKeyword?] at hword
      split at hword
      · rename_i hcase
        rw [List.mem_cons, not_or]
        refine ⟨?_, ih hletters.2 hword⟩
        rintro rfl
        rw [hletters.1] at hcase
        exact absurd hcase Bool.false_ne_true
      · exact absurd hword (by simp)

/-- The label of a ligature is found exactly if the text ends in the mark of one behind the
label. -/
theorem ligatureLabel?_eq_some_iff {text : List Char} {label : String} :
    ligatureLabel? text = some label ↔
      ∃ front mark, text = front ++ mark ∧ labelBefore? front = some label ∧
        isKeyword ligatureMark mark = true := by
  unfold ligatureLabel?
  dsimp only
  constructor
  · intro hlabel
    split at hlabel
    · rename_i hmark
      exact ⟨_, _, (List.take_append_drop _ _).symm, hlabel, hmark⟩
    · exact absurd hlabel nofun
  · rintro ⟨front, mark, rfl, hlabel, hmark⟩
    have hsize : (front ++ mark).length - ligatureMark.length = front.length := by
      rw [List.length_append, length_of_isKeyword hmark, Nat.add_sub_cancel]
    rw [hsize, List.drop_left, List.take_left, if_pos hmark, hlabel]

/-- A text ends in a codepoint if one is found behind a label. -/
theorem endsInCodepoint_of_codepointLabel? {text : List Char} {found : String × ℕ}
    (hfound : codepointLabel? text = some found) : EndsInCodepoint text := by
  obtain ⟨label, codepoint⟩ := found
  obtain ⟨front, numeral, rfl, hlabel, hdigits, hleast, hmost, -⟩ :=
    codepointLabel?_eq_some_iff.mp hfound
  obtain ⟨hne, -, -, space, rfl, hspace, hspaces⟩ := labelBefore?_eq_some_iff.mp hlabel
  exact ⟨label.toList, space, numeral, rfl, hne, hspace, hspaces, hdigits, hleast, hmost⟩

theorem endsInLigature_of_ligatureLabel? {text : List Char} {label : String}
    (hfound : ligatureLabel? text = some label) : EndsInLigature text := by
  obtain ⟨front, mark, rfl, hlabel, hmark⟩ := ligatureLabel?_eq_some_iff.mp hfound
  obtain ⟨hne, -, -, space, rfl, hspace, hspaces⟩ := labelBefore?_eq_some_iff.mp hlabel
  exact ⟨label.toList, space, mark, rfl, hne, hspace, hspaces, hmark⟩

theorem exists_labelOf_eq (text : List Char) : ∃ name mark, labelOf text = .label name mark := by
  unfold labelOf
  split
  · exact ⟨_, _, rfl⟩
  · split <;> exact ⟨_, _, rfl⟩

/-- A label that is the whole text bears no mark. -/
theorem eq_none_of_labelOf_eq {text : List Char} {mark : LabelMark}
    (hlabel : labelOf text = .label (String.ofList text) mark) : mark = .none := by
  have hshort {front rest : List Char} {name : String} (hname : labelBefore? front = some name)
      (htext : text = front ++ rest) : name ≠ String.ofList text := by
    rintro rfl
    obtain ⟨-, -, -, space, hfront, hspace, -⟩ := labelBefore?_eq_some_iff.mp hname
    have hlength := congrArg List.length htext
    rw [hfront, String.toList_ofList, List.length_append, List.length_append] at hlength
    have hpositive := List.length_pos_of_ne_nil hspace
    omega
  unfold labelOf at hlabel
  split at hlabel
  · rename_i name codepoint hfound
    obtain ⟨front, numeral, htext, hname, -⟩ := codepointLabel?_eq_some_iff.mp hfound
    rw [List.append_assoc, List.append_assoc] at htext
    exact absurd (HeaderField.label.inj hlabel).1 (hshort hname htext)
  · split at hlabel
    · rename_i name hfound
      obtain ⟨front, rest, htext, hname, -⟩ := ligatureLabel?_eq_some_iff.mp hfound
      exact absurd (HeaderField.label.inj hlabel).1 (hshort hname htext)
    · exact (HeaderField.label.inj hlabel).2.symm

/-- A text that ends in neither mark is a label alone. -/
theorem labelOf_unmarked {text : List Char} (hcodepoint : ¬ EndsInCodepoint text)
    (hligature : ¬ EndsInLigature text) :
    labelOf text = .label (String.ofList text) .none := by
  have hnumeral : codepointLabel? text = none :=
    Option.eq_none_iff_forall_ne_some.mpr fun _ hfound ↦
      hcodepoint (endsInCodepoint_of_codepointLabel? hfound)
  have hmark : ligatureLabel? text = none :=
    Option.eq_none_iff_forall_ne_some.mpr fun _ hfound ↦
      hligature (endsInLigature_of_ligatureLabel? hfound)
  rw [labelOf, hnumeral, hmark]

section

variable {label : List Char} (hne : label ≠ []) (hends : EndsSolid label) (hline : '\n' ∉ label)

include hne hends hline

theorem labelBefore?_append_space : labelBefore? (label ++ [' ']) = some (String.ofList label) := by
  rw [labelBefore?_eq_some_iff, String.toList_ofList]
  exact ⟨hne, hends, hline, [' '], rfl, List.cons_ne_nil _ _, fun c hc ↦
    List.mem_singleton.mp hc ▸ rfl⟩

/-- A codepoint behind a label is read as the number that its numeral denotes. -/
theorem labelOf_codepoint {numeral : List Char}
    (hdigits : ∀ c ∈ numeral, Hexadecimal.isDigit c = true) (hleast : 4 ≤ numeral.length)
    (hmost : numeral.length ≤ 6) :
    labelOf (label ++ " (U+".toList ++ numeral ++ [')']) =
      .label (String.ofList label) (.codepoint (Hexadecimal.value numeral)) := by
  have hsplit : label ++ " (U+".toList = label ++ [' '] ++ "(U+".toList := by simp
  rw [hsplit, labelOf, codepointLabel?_append hdigits hleast hmost,
    labelBefore?_append_space hne hends hline]
  rfl

/-- The mark of a ligature behind a label is read as such and not as a codepoint. -/
theorem labelOf_ligature :
    labelOf (label ++ ' ' :: ligatureMark) = .label (String.ofList label) .ligature := by
  have hreverse : (label ++ ' ' :: ligatureMark).reverse =
      ')' :: 'e' :: 'r' :: 'u' :: 't' :: 'a' :: 'g' :: 'i' :: 'l' :: '(' :: ' ' ::
        label.reverse := by
    rw [List.reverse_append]
    rfl
  have hnumeral : codepointLabel? (label ++ ' ' :: ligatureMark) = none := by
    rw [codepointLabel?, hreverse]
    rfl
  have hfound : ligatureLabel? (label ++ ' ' :: ligatureMark) = some (String.ofList label) :=
    ligatureLabel?_eq_some_iff.mpr ⟨label ++ [' '], ligatureMark, List.append_cons _ _ _,
      labelBefore?_append_space hne hends hline, by decide⟩
  rw [labelOf, hnumeral, hfound]

end

end HeaderField

namespace HeaderFields

/-- A line that is read and whose field can be added leaves the lines behind it to be read. -/
theorem addLines_cons {fields next : HeaderFields} {line : List Char} {field : HeaderField}
    {lines : List (List Char)} (hfield : HeaderField.ofLine line = .ok field)
    (hadd : fields.add field = .ok next) :
    fields.addLines (line :: lines) = next.addLines lines := by
  rw [addLines, hfield]
  show (fields.add field >>= fun fields ↦ fields.addLines lines) = next.addLines lines
  rw [hadd]
  rfl

end HeaderFields

end PixelFont
