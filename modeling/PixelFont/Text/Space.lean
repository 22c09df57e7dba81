/-!
White space of a text: which characters separate words, how a text is trimmed, and how it splits
into words. The class is that of the Unicode white space characters together with the four
information separators U+001C to U+001F.
-/

set_option autoImplicit false

namespace PixelFont.Text

/-- Whether a character is white space. -/
def isSpace (c : Char) : Bool :=
  let code := c.toNat
  (0x09 ≤ code && code ≤ 0x0D) || (0x1C ≤ code && code ≤ 0x20) || code == 0x85 || code == 0xA0 ||
    code == 0x1680 || (0x2000 ≤ code && code ≤ 0x200A) || code == 0x2028 || code == 0x2029 ||
    code == 0x202F || code == 0x205F || code == 0x3000

/-- The text without the white space at its start. -/
def trimStart (text : List Char) : List Char :=
  text.dropWhile isSpace

/-- The text without the white space at its end. -/
def trimEnd (text : List Char) : List Char :=
  (text.reverse.dropWhile isSpace).reverse

/-- The text without the white space at either end. -/
def trim (text : List Char) : List Char :=
  trimEnd (trimStart text)

/-- The maximal runs of characters other than white space, in order. -/
def words (text : List Char) : List (List Char) :=
  (text.splitOnP isSpace).filter fun word ↦ !word.isEmpty

end PixelFont.Text
