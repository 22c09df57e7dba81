import PixelFont.Path
import PixelFont.Settings.Checked
import PixelFont.Text.DecimalDigit
import PixelFont.Text.Space

/-!
Reading of single settings: integers within bounds, flags, texts, versions and paths. An integer
may be given as a number without a fraction, as a flag, or as a numeral in text; a flag as zero or
one, or as one of the words for yes and no.
-/

set_option autoImplicit false

namespace PixelFont

open Number

namespace Numeral

/-- Whether a character may surround a numeral: it is white space, but no information
separator. -/
def isPadding (c : Char) : Bool :=
  Text.isSpace c && !(0x1C ≤ c.toNat && c.toNat ≤ 0x1F)

/-- A text without the padding around it. -/
def trim (text : List Char) : List Char :=
  ((text.dropWhile isPadding).reverse.dropWhile isPadding).reverse

/-- The number of a sequence of digits of a class, between which single low lines may stand. -/
def digits? (isDigit : Char → Bool) (text : List Char) : Option Nat :=
  let groups := text.splitOn '_'
  if groups.all fun group ↦ !group.isEmpty && group.all isDigit then
    some (Text.decimalNumber groups.flatten)
  else none

/-- The number of an integer without a sign, after which a point and zeros may stand. -/
def unsigned? (text : List Char) : Option Nat :=
  match text.dropWhile (· != '.') with
  | [] => digits? Char.isDigit text
  | _ :: zeros =>
    if !zeros.isEmpty && zeros.all (· == '0') then
      digits? Char.isDigit (text.takeWhile (· != '.'))
    else none

/-- The number of an integer, before which a sign may stand. -/
def integer? (text : List Char) : Option Int :=
  match trim text with
  | '-' :: rest => (unsigned? rest).map fun (number : Nat) ↦ -(number : Int)
  | '+' :: rest => (unsigned? rest).map Int.ofNat
  | rest => (unsigned? rest).map Int.ofNat

end Numeral

namespace Value

/-- The bound of integers that fit in a machine word with a sign. -/
def wordBound : Int := 0x8000000000000000

/-- The integer that a value gives. -/
def readInteger : Value → Checked Int
  | bool flag => .value (if flag then 1 else 0)
  | int number => .value number
  | real number =>
    match number with
    | .finite .. =>
      match number.toInt? with
      | some whole =>
        if -wordBound < whole ∧ whole < wordBound then .value whole else .fail .oversizedInteger
      | none => .fail .fractionalInteger
    | _ => .fail .infiniteInteger
  | text content =>
    match Numeral.integer? content.toList with
    | some number => .value number
    | none => .fail .unreadableInteger
  | null => .fail .notInteger
  | list _ => .fail .notInteger
  | record _ => .fail .notInteger

/-- The integer that a value gives, from a least one on. -/
def readFrom (least : Nat) (value : Value) : Checked Nat :=
  value.readInteger.andThen fun number ↦
    if number < least then .fail (.below least) else .value number.toNat

/-- The integer that a value gives, between two bounds. -/
def readBetween (least greatest : Nat) (value : Value) : Checked Nat :=
  value.readInteger.andThen fun number ↦
    if number < least then .fail (.below least)
    else if greatest < number then .fail (.above greatest)
    else .value number.toNat

/-- The words for yes. -/
def yesWords : List String := ["1", "t", "true", "y", "yes", "on"]

/-- The words for no. -/
def noWords : List String := ["0", "f", "false", "n", "no", "off"]

/-- The flag that a number gives. -/
def flagOfNumber (number : Int) : Checked Bool :=
  if number = 1 then .value true
  else if number = 0 then .value false
  else .fail .unreadableFlag

/-- The flag that a value gives; the words are read in any case of ASCII letters. -/
def readFlag : Value → Checked Bool
  | bool flag => .value flag
  | int number =>
    if -wordBound ≤ number ∧ number < wordBound then flagOfNumber number else .fail .notFlag
  | real number =>
    match number.toInt? with
    | some whole =>
      if -wordBound < whole ∧ whole < wordBound then flagOfNumber whole else .fail .notFlag
    | none => .fail .notFlag
  | text content =>
    if yesWords.contains content.toLower then .value true
    else if noWords.contains content.toLower then .value false
    else .fail .unreadableFlag
  | null => .fail .notFlag
  | list _ => .fail .notFlag
  | record _ => .fail .notFlag

/-- The text that a value is. -/
def readText : Value → Checked String
  | text content => .value content
  | _ => .fail .notText

/-- The text that a value is, which must not be empty. -/
def readName (value : Value) : Checked String :=
  value.readText.andThen fun name ↦ if name = "" then .fail .emptyText else .value name

/-- Whether a text is a version: two sequences of decimal digits with a point between them. -/
def isVersion (text : List Char) : Bool :=
  match text.splitOn '.' with
  | [major, minor] =>
    !major.isEmpty && !minor.isEmpty && major.all Text.isDecimalDigit &&
      minor.all Text.isDecimalDigit
  | _ => false

/-- The version that a value is. -/
def readVersion (value : Value) : Checked String :=
  value.readText.andThen fun version ↦
    if isVersion version.toList then .value version else .fail .badVersion

/-- The path that a text gives. -/
def readPath : Value → Checked Path
  | text content => .value (Path.ofString content)
  | _ => .fail .notPath

/-- The paths that a list of texts gives. -/
def readPaths : Value → Checked (List Path)
  | list contents => Checked.items readPath 0 contents
  | _ => .fail .notList

/-- What a value gives, null giving nothing. -/
def readOptional {α : Type} (read : Value → Checked α) : Value → Checked (Option α)
  | null => .value none
  | value => (read value).map some

end Value

end PixelFont
