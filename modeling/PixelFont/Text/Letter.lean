/-!
Comparison of letters without regard to case, as keywords of a header are compared. Besides the
two cases of a letter, the dotted capital and the dotless small i stand for `i`, the long s for
`s` and the kelvin sign for `k`.
-/

set_option autoImplicit false

namespace PixelFont.Text

/-- Whether a character is a spelling of the given lower-case letter (or of the given character,
where that is no letter). -/
def isCaseOf (letter c : Char) : Bool :=
  c.toLower == letter ||
    (letter == 'i' && (c == '\u0130' || c == '\u0131')) ||
    (letter == 's' && c == '\u017f') ||
    (letter == 'k' && c == '\u212a')

/-- What follows a keyword at the start of a text, the keyword being written in lower case and
read in any case. -/
def dropKeyword? : List Char → List Char → Option (List Char)
  | [], text => some text
  | _ :: _, [] => none
  | letter :: keyword, c :: text => if isCaseOf letter c then dropKeyword? keyword text else none

/-- Whether a text is a keyword, in any case. -/
def isKeyword (keyword text : List Char) : Bool :=
  dropKeyword? keyword text == some []

end PixelFont.Text
