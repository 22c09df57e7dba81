import PixelFont.GlyphFile.Header
import PixelFont.Raster.Grid

/-!
The lines of a glyph file: header lines, which begin with a comment mark, and then the raster.
Lines end at a line feed, before which one carriage return does not count. Blank lines, of spaces
and tabs alone, may stand between header lines and at the end; within the raster they are rows.
-/

set_option autoImplicit false

namespace PixelFont.GlyphFile

/-- A line without one carriage return at its end. -/
def dropReturn (line : List Char) : List Char :=
  if line.getLast? = some '\r' then line.dropLast else line

/-- The lines of a text. -/
def lines (text : List Char) : List (List Char) :=
  (text.splitOn '\n').map dropReturn

/-- Whether a line holds spaces and tabs alone. -/
def isBlank (line : List Char) : Bool :=
  line.all fun c ↦ c == ' ' || c == '\t'

/-- Whether a line is one of the header. -/
def isHeaderLine (line : List Char) : Bool :=
  line.head? == some HeaderField.commentMark

/-- The header lines and the raster lines of a file. -/
structure Sections where
  header : List (List Char)
  raster : List (List Char)
  deriving DecidableEq, Repr

/-- The sections of a file given by its lines. -/
def sectionsOfLines (lines : List (List Char)) : Sections :=
  let kept := (lines.reverse.dropWhile isBlank).reverse
  let isOpening (line : List Char) : Bool := isHeaderLine line || isBlank line
  ⟨(kept.takeWhile isOpening).filter isHeaderLine, kept.dropWhile isOpening⟩

/-- The sections of a text. -/
def sections (text : List Char) : Sections :=
  sectionsOfLines (lines text)

/-- The grid that raster lines show. -/
def grid (raster : List (List Char)) : Grid :=
  raster.map Grid.ofRowText

end PixelFont.GlyphFile
