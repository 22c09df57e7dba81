import PixelFont.Text.Hexadecimal
import PixelFont.Text.Printable

/-!
Quoted texts, as messages show a value that may hold anything. Single quotes stand around the
text, or double quotes where it holds a single quote and no double one. The quote in use, the
backslash and the characters that are not printable are escaped.
-/

set_option autoImplicit false

namespace PixelFont.Text.Quoted

/-- The quote that stands around a text. -/
def mark (text : List Char) : Char :=
  if text.contains '\'' && !text.contains '"' then '"' else '\''

/-- The escape of a character that is not printable, by the least of the three widths that holds
its codepoint. -/
def escapeCode (code : Nat) : List Char :=
  if code < 0x100 then '\\' :: 'x' :: (Hexadecimal.paddedSmall 2 code).toList
  else if code < 0x10000 then '\\' :: 'u' :: (Hexadecimal.paddedSmall 4 code).toList
  else '\\' :: 'U' :: (Hexadecimal.paddedSmall 8 code).toList

/-- How a character is written between the given quotes. -/
def writeChar (quote c : Char) : List Char :=
  if c = quote ∨ c = '\\' then ['\\', c]
  else if c = '\t' then ['\\', 't']
  else if c = '\n' then ['\\', 'n']
  else if c = '\r' then ['\\', 'r']
  else if isPrintable c then [c]
  else escapeCode c.toNat

/-- The quoted form of a text. -/
def quote (text : String) : String :=
  let around := mark text.toList
  String.ofList (around :: (text.toList.flatMap (writeChar around) ++ [around]))

end PixelFont.Text.Quoted
