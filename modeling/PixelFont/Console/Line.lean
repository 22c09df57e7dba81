import PixelFont.Text.Width

/-!
Lines of a console. A text is shown on as many lines as it has; characters that would move the
cursor back or ring are left out, and a tabulator moves on to the next eighth cell. Tags in
brackets style what stands after them, so a text that is data is shielded against being read as
tags; where a bracket begins no tag, a backslash before it is taken for a shield and vanishes.
-/

set_option autoImplicit false

namespace PixelFont.Console

/-- Whether a console leaves a character out. -/
def isLeftOut (c : Char) : Bool :=
  ['\x07', '\x08', '\x0b', '\x0c', '\r'].contains c

/-- The distance of the stops of the tabulator. -/
def tabStop : Nat := 8

/-- A text with spaces for its tabulators, from a given cell of the line on. -/
def expandTabs : Nat → List Char → List Char
  | _, [] => []
  | cell, c :: text =>
    if c = '\t' then
      let spaces := tabStop - cell % tabStop
      List.replicate spaces ' ' ++ expandTabs (cell + spaces) text
    else c :: expandTabs (cell + Text.charWidth c) text

/-- The lines of a text without the characters that a console leaves out. -/
def rawLines (text : String) : List (List Char) :=
  (text.toList.filter fun c ↦ !isLeftOut c).splitOn '\n'

/-- The lines on which a text is shown. -/
def lines (text : String) : List String :=
  (rawLines text).map fun line ↦ String.ofList (expandTabs 0 line)

/-- A line without the spaces at its end. -/
def trimEnd (line : String) : String :=
  String.ofList (line.toList.reverse.dropWhile (· == ' ')).reverse

/-! ### Data between tags -/

/-- Whether a tag can begin with a character. -/
def isTagStart (c : Char) : Bool :=
  c.isLower || c == '#' || c == '/' || c == '@'

/-- Whether a text begins with a tag. -/
def beginsTag : List Char → Bool
  | '[' :: c :: text => isTagStart c && (text.takeWhile (· != '[')).contains ']'
  | _ => false

/-- A text without the backslashes that stand right before a bracket that begins no tag. -/
def dropShields : List Char → List Char
  | [] => []
  | c :: text =>
    if c = '\\' ∧ text.head? = some '[' ∧ beginsTag text = false then dropShields text
    else c :: dropShields text

/-- Whether a text ends with a backslash that stands alone. -/
def endsWithShield (text : List Char) : Bool :=
  match text.reverse with
  | '\\' :: '\\' :: _ => false
  | '\\' :: _ => true
  | _ => false

/-- How a text that is data is shown: tags stand as they are, and a single backslash at the end is
doubled. -/
def shielded (data : String) : String :=
  let text := dropShields data.toList
  String.ofList (if endsWithShield data.toList then text ++ ['\\'] else text)

example : shielded "[red]x" = "[red]x" := by decide +kernel

end PixelFont.Console
