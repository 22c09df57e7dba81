import PixelFont.Glyph.Basic
import PixelFont.Text.Hexadecimal
import PixelFont.Text.Letter
import PixelFont.Text.Quoted
import PixelFont.Text.Space

/-!
Header lines of a glyph file. A line begins with a comment mark and holds one field: the weight,
the components of a ligature, or a label, which a codepoint or the word `ligature` in parentheses
may follow. The forms are tried in this order and the first that fits decides.
-/

set_option autoImplicit false

namespace PixelFont

open Text

/-- What is wrong with a header. -/
inductive HeaderFault where
  | unknownWeight (value : List Char)
  | noComponents
  | repeatedWeight
  | repeatedComponents
  | noLabel
  deriving DecidableEq, Repr

/-- The wording of a fault. -/
def HeaderFault.message : HeaderFault → String
  | .unknownWeight value =>
    "unknown weight " ++ Quoted.quote (String.ofList value) ++ " (expected regular or bold)"
  | .noComponents => "components field lists no labels"
  | .repeatedWeight => "weight field given more than once"
  | .repeatedComponents => "components field given more than once"
  | .noLabel => "no label in header or filename"

/-- What follows a label in parentheses. -/
inductive LabelMark where
  | none
  | codepoint (codepoint : Nat)
  | ligature
  deriving DecidableEq, Repr

/-- The field that a header line holds. -/
inductive HeaderField where
  | blank
  | weight (weight : Weight)
  | components (labels : List String)
  | label (label : String) (mark : LabelMark)
  deriving DecidableEq, Repr

namespace HeaderField

/-- The mark that a header line begins with. -/
def commentMark : Char := '#'

/-- The text of a line without its comment mark and the white space around it. -/
def content (line : List Char) : List Char :=
  match trimStart line with
  | [] => []
  | c :: rest => if c = commentMark then trim rest else trim (c :: rest)

/-- The keyword of the field for the weight. -/
def weightKeyword : List Char := "weight".toList

/-- The keyword of the field for the components. -/
def componentsKeyword : List Char := "components".toList

/-- What follows a keyword and a colon, between which white space may stand. -/
def fieldValue? (keyword text : List Char) : Option (List Char) :=
  match (dropKeyword? keyword text).map trimStart with
  | some (':' :: value) => some value
  | _ => none

/-- The value of the field for the weight, which stands on one line. -/
def weightValue? (text : List Char) : Option (List Char) :=
  (fieldValue? weightKeyword text).bind fun value ↦
    let value := trimStart value
    if value.contains '\n' then none else some (trimEnd value)

/-- The value of the field for the components, which stands on one line. -/
def componentsValue? (text : List Char) : Option (List Char) :=
  (fieldValue? componentsKeyword text).bind fun value ↦
    if value.contains '\n' then none else some value

/-- The weight of a name in any case. -/
def weightNamed? (value : List Char) : Option Weight :=
  if isKeyword Weight.regular.name.toList value then some .regular
  else if isKeyword Weight.bold.name.toList value then some .bold
  else none

/-- The label before a mark, which white space separates from it. The label is not empty and
stands on one line. -/
def labelBefore? (front : List Char) : Option String :=
  let name := trimEnd front
  if name.isEmpty || name.length == front.length || name.contains '\n' then none
  else some (String.ofList name)

/-- The label and the codepoint of a text that ends in `(U+` with four to six hexadecimal digits
and a closing parenthesis. -/
def codepointLabel? (text : List Char) : Option (String × Nat) :=
  match text.reverse with
  | ')' :: rest =>
    let numeral := rest.takeWhile Hexadecimal.isDigit
    match rest.dropWhile Hexadecimal.isDigit with
    | '+' :: 'U' :: '(' :: front =>
      if 4 ≤ numeral.length ∧ numeral.length ≤ 6 then
        (labelBefore? front.reverse).map fun name ↦ (name, Hexadecimal.value numeral.reverse)
      else none
    | _ => none
  | _ => none

/-- The mark of a ligature. -/
def ligatureMark : List Char := "(ligature)".toList

/-- The label of a text that ends in the mark of a ligature, in any case. -/
def ligatureLabel? (text : List Char) : Option String :=
  let size := text.length - ligatureMark.length
  if isKeyword ligatureMark (text.drop size) then labelBefore? (text.take size) else none

/-- The label that a text gives with what follows it. -/
def labelOf (text : List Char) : HeaderField :=
  match codepointLabel? text with
  | some (name, codepoint) => .label name (.codepoint codepoint)
  | none =>
    match ligatureLabel? text with
    | some name => .label name .ligature
    | none => .label (String.ofList text) .none

/-- The field that the text of a line holds. -/
def ofContent (text : List Char) : Except HeaderFault HeaderField :=
  if text.isEmpty then .ok .blank
  else
    match weightValue? text with
    | some value =>
      match weightNamed? value with
      | some named => .ok (.weight named)
      | none => .error (.unknownWeight value)
    | none =>
      match componentsValue? text with
      | some value =>
        match words value with
        | [] => .error .noComponents
        | labels => .ok (.components (labels.map String.ofList))
      | none => .ok (labelOf text)

/-- The field that a header line holds. -/
def ofLine (line : List Char) : Except HeaderFault HeaderField :=
  ofContent (content line)

end HeaderField

/-- The fields of a header that stand on lines of their own. -/
structure HeaderFields where
  label : Option (String × LabelMark) := none
  weight : Option Weight := none
  components : Option (List String) := none
  deriving DecidableEq, Repr

namespace HeaderFields

/-- The fields with one more. The weight and the components may be given once; of several labels
the first counts and the others are comments. -/
def add (fields : HeaderFields) : HeaderField → Except HeaderFault HeaderFields
  | .blank => .ok fields
  | .weight weight =>
    if fields.weight.isSome then .error .repeatedWeight
    else .ok { fields with weight := some weight }
  | .components labels =>
    if fields.components.isSome then .error .repeatedComponents
    else .ok { fields with components := some labels }
  | .label label mark =>
    if fields.label.isSome then .ok fields else .ok { fields with label := some (label, mark) }

/-- The fields with those of some lines. -/
def addLines (fields : HeaderFields) : List (List Char) → Except HeaderFault HeaderFields
  | [] => .ok fields
  | line :: lines => do
    let field ← HeaderField.ofLine line
    let fields ← fields.add field
    fields.addLines lines

/-- The fields of some lines; the first fault counts. -/
def ofLines (lines : List (List Char)) : Except HeaderFault HeaderFields :=
  addLines {} lines

/-- Whether the fields describe a ligature. -/
def isLigature (fields : HeaderFields) : Bool :=
  fields.components.isSome || (fields.label.map (·.2)) == some .ligature

end HeaderFields

end PixelFont
