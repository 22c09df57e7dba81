import PixelFont.Text.Hexadecimal
import PixelFont.Value

/-!
Reading a value from a JSON text. Besides the standard forms the names `NaN`, `Infinity` and
`-Infinity` are numbers. A key that a record repeats takes its last value. A text that is no value
is refused with the first fault and the line on which it stands.

The reader keeps limits that are not those of the format: an integer may have too many digits, and
lists and records may be nested too deeply. A text that goes beyond them is not read further.
-/

set_option autoImplicit false

namespace PixelFont.Json

open Number

/-- Why a text is not a value. -/
inductive Fault where
  | value
  | propertyName
  | colon
  | comma
  | extraData
  | unterminatedString
  | escape
  | unicodeEscape
  | controlCharacter
  | byteOrderMark
  deriving DecidableEq, Repr

/-- The wording of a fault. -/
def Fault.message : Fault → String
  | .value => "Expecting value"
  | .propertyName => "Expecting property name enclosed in double quotes"
  | .colon => "Expecting ':' delimiter"
  | .comma => "Expecting ',' delimiter"
  | .extraData => "Extra data"
  | .unterminatedString => "Unterminated string starting at"
  | .escape => "Invalid \\escape"
  | .unicodeEscape => "Invalid \\uXXXX escape"
  | .controlCharacter => "Invalid control character at"
  | .byteOrderMark => "Unexpected UTF-8 BOM (decode using utf-8-sig)"

/-- The limits that a reader keeps. -/
structure Limits where
  /-- The greatest number of digits of an integer, if there is one. -/
  digits : Option Nat := some 4300
  /-- How many lists and records may be open within one another. What is left of the stack decides
  on this number; it is that of a reader with the stack to itself. -/
  depth : Nat := 995
  deriving DecidableEq, Repr

/-- A limit that a text goes beyond. -/
inductive LimitFault where
  | digits (greatest count : Nat)
  | nestedList
  | nestedRecord
  deriving DecidableEq, Repr

/-- The wording of a limit that a text goes beyond. -/
def LimitFault.message : LimitFault → String
  | .digits greatest count =>
    "Exceeds the limit (" ++ toString greatest ++ " digits) for integer string conversion: " ++
      "value has " ++ toString count ++ " digits; use sys.set_int_max_str_digits() to increase " ++
      "the limit"
  | .nestedList =>
    "maximum recursion depth exceeded while decoding a JSON array from a unicode string"
  | .nestedRecord =>
    "maximum recursion depth exceeded while decoding a JSON object from a unicode string"

/-- Why a text is not read further: at a fault, together with the text from its place on, or at a
limit. -/
inductive Failure where
  | malformed (fault : Fault) (rest : List Char)
  | beyond (fault : LimitFault)

/-- The text after the white space at its start. -/
def skipBlank (text : List Char) : List Char :=
  text.dropWhile fun c ↦ c == ' ' || c == '\t' || c == '\n' || c == '\r'

/-- What follows a word at the start of a text. -/
def dropWord? : List Char → List Char → Option (List Char)
  | [], text => some text
  | _ :: _, [] => none
  | letter :: word, c :: text => if letter = c then dropWord? word text else none

/-- The value of four hexadecimal digits. -/
def fourDigits? (a b c d : Char) : Option Nat :=
  if [a, b, c, d].all Text.Hexadecimal.isDigit then some (Text.Hexadecimal.value [a, b, c, d])
  else none

/-- Whether a code unit is the first of a surrogate pair. -/
def isHighSurrogate (unit : Nat) : Bool :=
  0xD800 ≤ unit && unit ≤ 0xDBFF

/-- Whether a code unit is the second of a surrogate pair. -/
def isLowSurrogate (unit : Nat) : Bool :=
  0xDC00 ≤ unit && unit ≤ 0xDFFF

/-- The character of a code unit; a surrogate that stands alone becomes the replacement
character. -/
def unitChar (unit : Nat) : Char :=
  if isHighSurrogate unit || isLowSurrogate unit then '\ufffd' else Char.ofNat unit

/-- The characters of a sequence of code units, a pair of surrogates making one character. -/
def unitChars : List Nat → List Char
  | [] => []
  | [unit] => [unitChar unit]
  | unit :: second :: units =>
    if isHighSurrogate unit && isLowSurrogate second then
      Char.ofNat (0x10000 + (unit - 0xD800) * 0x400 + (second - 0xDC00)) :: unitChars units
    else unitChar unit :: unitChars (second :: units)

/-- The character that a one-letter escape stands for. -/
def escapeChar? : Char → Option Char
  | '"' => some '"'
  | '\\' => some '\\'
  | '/' => some '/'
  | 'b' => some '\x08'
  | 'f' => some '\x0c'
  | 'n' => some '\n'
  | 'r' => some '\r'
  | 't' => some '\t'
  | _ => none

/-- The rest of a string after its opening quote, given the text at that quote and the code units
read so far in reverse order. A character that is written out is one code unit here. An escape by
code counts as complete only where a character follows it. -/
def stringRest (opening : List Char) (units : List Nat) :
    List Char → Except Failure (String × List Char)
  | [] => .error (.malformed .unterminatedString opening)
  | '"' :: rest => .ok (String.ofList (unitChars units.reverse), rest)
  | '\\' :: [] => .error (.malformed .unterminatedString opening)
  | '\\' :: 'u' :: a :: b :: c :: d :: rest =>
    match rest, fourDigits? a b c d with
    | _ :: _, some unit => stringRest opening (unit :: units) rest
    | _, _ => .error (.malformed .unicodeEscape opening)
  | '\\' :: 'u' :: _ => .error (.malformed .unicodeEscape opening)
  | '\\' :: c :: rest =>
    match escapeChar? c with
    | some meant => stringRest opening (meant.toNat :: units) rest
    | none => .error (.malformed .escape ('\\' :: c :: rest))
  | c :: rest =>
    if c.toNat < 0x20 then .error (.malformed .controlCharacter (c :: rest))
    else stringRest opening (c.toNat :: units) rest

/-- Decimal digits at the start of a text and what follows them. -/
def digitRun (text : List Char) : List Char × List Char :=
  text.span Char.isDigit

/-- The number that decimal digits denote. -/
def digitsValue (digits : List Char) : Nat :=
  digits.foldl (fun total c ↦ total * 10 + (c.toNat - '0'.toNat)) 0

/-- The digits after a decimal point at the start of a text, empty where there is none. -/
def fractionRun : List Char → List Char × List Char
  | '.' :: text =>
    let (digits, rest) := digitRun text
    if digits.isEmpty then ([], '.' :: text) else (digits, rest)
  | text => ([], text)

/-- The sign at the start of an exponent and what follows it. -/
def exponentSign : List Char → Bool × List Char
  | '-' :: text => (true, text)
  | '+' :: text => (false, text)
  | text => (false, text)

/-- The exponent at the start of a text, if one stands there. -/
def exponentRun? : List Char → Option (Int × List Char)
  | [] => none
  | c :: text =>
    if c = 'e' ∨ c = 'E' then
      let (negative, text) := exponentSign text
      let (digits, rest) := digitRun text
      if digits.isEmpty then none
      else some (if negative then -(digitsValue digits) else digitsValue digits, rest)
    else none

/-- The integer that decimal digits denote, unless there are too many of them. -/
def Limits.integer (limits : Limits) (negative : Bool) (digits : List Char) :
    Except Failure Value :=
  match limits.digits with
  | some greatest =>
    if greatest < digits.length then .error (.beyond (.digits greatest digits.length))
    else .ok (.int (if negative then -(digitsValue digits) else digitsValue digits))
  | none => .ok (.int (if negative then -(digitsValue digits) else digitsValue digits))

/-- The unsigned number at the start of a text. A number is an integer unless it has a fraction
or an exponent. -/
def unsigned? (limits : Limits) (negative : Bool) (text : List Char) :
    Option (Except Failure (Value × List Char)) :=
  let whole? := match text with
    | '0' :: rest => some (['0'], rest)
    | _ =>
      let (digits, rest) := digitRun text
      if digits.isEmpty then none else some (digits, rest)
  whole?.map fun (whole, rest) ↦
    let (fraction, rest) := fractionRun rest
    match exponentRun? rest, fraction with
    | none, [] => (limits.integer negative whole).map (·, rest)
    | none, _ =>
      .ok (.real (.ofDecimal negative (digitsValue (whole ++ fraction)) (-fraction.length)), rest)
    | some (exponent, rest), _ =>
      .ok (.real (.ofDecimal negative (digitsValue (whole ++ fraction))
        (exponent - fraction.length)), rest)

/-- The names of values. -/
def names : List (List Char × Value) :=
  [("null".toList, .null), ("true".toList, .bool true), ("false".toList, .bool false),
    ("NaN".toList, .real .nan), ("Infinity".toList, .real (.infinite false)),
    ("-Infinity".toList, .real (.infinite true))]

/-- A name or a number at the start of a text. -/
def atom (limits : Limits) (text : List Char) : Except Failure (Value × List Char) :=
  let named := names.findSome? fun (name, value) ↦
    (dropWord? name text).map fun rest ↦ .ok (value, rest)
  let number := match text with
    | '-' :: rest => unsigned? limits true rest
    | _ => unsigned? limits false text
  match named <|> number with
  | some result => result
  | none => .error (.malformed .value text)

mutual

/-- The value at the start of a text, in which so many lists and records may still be opened within
one another. The fuel bounds the number of values begun. -/
def value (limits : Limits) : Nat → Nat → List Char → Except Failure (Value × List Char)
  | 0, _, text => .error (.malformed .value text)
  | fuel + 1, depth, text =>
    match text with
    | '"' :: rest => do
      let (content, rest) ← stringRest text [] rest
      return (.text content, rest)
    | '[' :: rest =>
      match depth with
      | 0 => .error (.beyond .nestedList)
      | depth + 1 =>
        match skipBlank rest with
        | ']' :: rest => .ok (.list [], rest)
        | rest => items limits fuel depth [] rest
    | '\x7b' :: rest =>
      match depth with
      | 0 => .error (.beyond .nestedRecord)
      | depth + 1 =>
        match skipBlank rest with
        | '\x7d' :: rest => .ok (.record [], rest)
        | rest => members limits fuel depth [] rest
    | _ => atom limits text

/-- The items of a list from one item on, given those before it in reverse order. -/
def items (limits : Limits) :
    Nat → Nat → List Value → List Char → Except Failure (Value × List Char)
  | 0, _, _, text => .error (.malformed .value text)
  | fuel + 1, depth, before, text => do
    let (item, rest) ← value limits fuel depth text
    match skipBlank rest with
    | ']' :: rest => return (.list (item :: before).reverse, rest)
    | ',' :: rest => items limits fuel depth (item :: before) (skipBlank rest)
    | rest => .error (.malformed .comma rest)

/-- The members of a record from one member on, given the fields assigned before it. -/
def members (limits : Limits) :
    Nat → Nat → List (String × Value) → List Char → Except Failure (Value × List Char)
  | 0, _, _, text => .error (.malformed .value text)
  | fuel + 1, depth, before, text =>
    match text with
    | '"' :: rest => do
      let (key, rest) ← stringRest text [] rest
      match skipBlank rest with
      | ':' :: rest =>
        let (content, rest) ← value limits fuel depth (skipBlank rest)
        let fields := Value.assign before key content
        match skipBlank rest with
        | '\x7d' :: rest => return (.record fields, rest)
        | ',' :: rest => members limits fuel depth fields (skipBlank rest)
        | rest => .error (.malformed .comma rest)
      | rest => .error (.malformed .colon rest)
    | _ => .error (.malformed .propertyName text)

end

/-- A fault and the number of the line on which it stands. -/
structure SyntaxError where
  fault : Fault
  line : Nat
  deriving DecidableEq, Repr

/-- The wording of a syntax error. -/
def SyntaxError.message (error : SyntaxError) : String :=
  error.fault.message ++ " at line " ++ toString error.line

/-- Why a text gives no value. -/
inductive ReadError where
  | malformed (error : SyntaxError)
  | beyond (fault : LimitFault)
  deriving DecidableEq, Repr

/-- A failure within a text, a fault being told by its line, the first line having number one. -/
def Failure.inText (text : List Char) : Failure → ReadError
  | .malformed fault rest =>
    let before := text.take (text.length - rest.length)
    .malformed ⟨fault, before.count '\n' + 1⟩
  | .beyond fault => .beyond fault

/-- The value that a whole text denotes, white space around it being skipped. Every value begun
takes a character of its own, so the length of the text is fuel enough. -/
def read (limits : Limits) (text : List Char) : Except ReadError Value :=
  if text.head? = some '\ufeff' then .error (.malformed ⟨.byteOrderMark, 1⟩)
  else
    match value limits (2 * text.length + 1) limits.depth (skipBlank text) with
    | .error failure => .error (failure.inText text)
    | .ok (result, rest) =>
      match skipBlank rest with
      | [] => .ok result
      | rest => .error (Failure.inText text (.malformed .extraData rest))

end PixelFont.Json
