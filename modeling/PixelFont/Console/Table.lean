import PixelFont.Console.Line
import PixelFont.Text.Space

/-!
Tables on a console. A column is as wide as the widest line of its cells, the heading being one of
them, and two spaces stand between columns. A line that its tabulators make wider than the column
is broken between words, and inside a word that no line can hold.
-/

set_option autoImplicit false

namespace PixelFont.Console

/-! ### Breaking of lines -/

/-- The words of the rest of a text, after the spaces that stand before the first of them, with
one more character before. A word keeps the spaces after it. -/
def addToWords (c : Char) (rest : List Char × List (List Char)) : List Char × List (List Char) :=
  if Text.isSpace c then (c :: rest.1, rest.2)
  else
    match rest with
    | ([], word :: words) => ([], (c :: word) :: words)
    | (spaces, words) => ([], (c :: spaces) :: words)

/-- The words of a text, each with the spaces after it and the first also with those before. -/
def words (text : List Char) : List (List Char) :=
  match text.foldr addToWords ([], []) with
  | (spaces, word :: words) => (spaces ++ word) :: words
  | (_, []) => []

/-- A text cut into pieces that fit a number of cells, a first piece being already begun. -/
def cut (limit : Nat) (piece : List Char) : List Char → List (List Char)
  | [] => [piece]
  | c :: text =>
    if limit < Text.width piece + Text.charWidth c then piece :: cut limit [c] text
    else cut limit (piece ++ [c]) text

/-- Lines, the last first, with one more word. -/
def addWord (limit : Nat) (lines : List (List Char)) (word : List Char) : List (List Char) :=
  let size := Text.width (Text.trimEnd word)
  match lines with
  | [] => if limit < size then (cut limit [] word).reverse else [word]
  | line :: others =>
    if Text.width line + size ≤ limit then (line ++ word) :: others
    else if limit < size then (cut limit [] word).reverse ++ lines
    else word :: lines

/-- The lines into which a line is broken to fit a number of cells. -/
def wrap (limit : Nat) (line : List Char) : List (List Char) :=
  match ((words line).foldl (addWord limit) []).reverse with
  | [] => [line]
  | lines => lines

/-! ### Columns -/

/-- Whether a character ends a line where the width of a cell is measured. -/
def endsMeasure (c : Char) : Bool :=
  ['\n', '\x1c', '\x1d', '\x1e', '\u0085', '\u2028', '\u2029'].contains c

/-- The width of the widest line of a cell. -/
def cellWidth (cell : String) : Nat :=
  ((cell.toList.filter fun c ↦ !isLeftOut c).splitOnP endsMeasure).foldl
    (fun widest line ↦ max widest (Text.width line)) 0

/-- The widths of the columns of some rows. -/
def columnWidths (rows : List (List String)) : List Nat :=
  rows.foldl
    (fun widths row ↦ widths.zipWithAll (fun width cell ↦ max (width.getD 0) (cell.getD 0))
      (row.map cellWidth))
    []

/-- A line without as many spaces at its end as it has characters beyond a number of them. -/
def dropExcess (limit : Nat) (line : List Char) : List Char :=
  let spaces := line.length - (Text.trimEnd line).length
  line.take (line.length - min spaces (line.length - limit))

/-- The lines of a cell in a column of some width. -/
def cellLines (limit : Nat) (cell : String) : List (List Char) :=
  (rawLines cell).flatMap fun line ↦ (wrap limit (expandTabs 0 line)).map (dropExcess limit)

/-- As much of a line as fits a number of cells. -/
def fitting : Nat → List Char → List Char
  | _, [] => []
  | limit, c :: text =>
    if limit < Text.charWidth c then [] else c :: fitting (limit - Text.charWidth c) text

/-- A line of a cell with spaces up to the width of the column. -/
def padded (limit : Nat) (line : List Char) : List Char :=
  let text := fitting limit line
  text ++ List.replicate (limit - Text.width text) ' '

/-- The lines of a row. -/
def rowLines (widths : List Nat) (row : List String) : List String :=
  let cells := List.zipWith cellLines widths row
  let height := cells.foldl (fun height cell ↦ max height cell.length) 0
  (List.range height).map fun number ↦
    String.ofList ([' ', ' '].intercalate
      (List.zipWith (fun width cell ↦ padded width ((cell[number]?).getD [])) widths cells))

/-- The lines of a table, whose first row is the heading. -/
def tableLines (rows : List (List String)) : List String :=
  rows.flatMap (rowLines (columnWidths rows))

end PixelFont.Console
