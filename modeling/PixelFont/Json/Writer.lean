import PixelFont.Text.Hexadecimal
import PixelFont.Value

/-!
Writing of a value as a JSON text on one line. In a string the quote, the backslash and control
characters are escaped; all other characters stand for themselves.
-/

set_option autoImplicit false

namespace PixelFont.Json

/-- How a character is written in a string. -/
def writeChar (c : Char) : List Char :=
  if c = '"' ∨ c = '\\' then ['\\', c]
  else if c = '\n' then ['\\', 'n']
  else if c = '\r' then ['\\', 'r']
  else if c = '\t' then ['\\', 't']
  else if c.toNat < 0x20 then '\\' :: 'u' :: (Text.Hexadecimal.paddedSmall 4 c.toNat).toList
  else [c]

/-- A string with the quotes around it. -/
def writeString (content : String) : String :=
  String.ofList ('"' :: (content.toList.flatMap writeChar ++ ['"']))

mutual

/-- The text of a value. -/
def write : Value → String
  | .null => "null"
  | .bool flag => if flag then "true" else "false"
  | .int number => toString number
  | .real number => number.toText
  | .text content => writeString content
  | .list items => "[" ++ ", ".intercalate (writeItems items) ++ "]"
  | .record fields => "\x7b" ++ ", ".intercalate (writeFields fields) ++ "\x7d"

/-- The texts of the items of a list. -/
def writeItems : List Value → List String
  | [] => []
  | item :: items => write item :: writeItems items

/-- The texts of the fields of a record. -/
def writeFields : List (String × Value) → List String
  | [] => []
  | (key, value) :: fields => (writeString key ++ ": " ++ write value) :: writeFields fields

end

end PixelFont.Json
