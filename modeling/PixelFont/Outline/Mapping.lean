import PixelFont.Glyph.Name
import PixelFont.Outline.Basic
import PixelFont.Raster.Rectangle

/-!
From rectangles of cells to contours. Columns are measured from the left edge of the raster, rows
downwards from its top; in font units the vertical axis points upwards and the baseline is zero.
The top edge of a row is as many pixels above the baseline as the row is rows above the baseline
row. Every rectangle becomes one contour, traversed clockwise from its top left corner.
-/

set_option autoImplicit false

namespace PixelFont

/-- How cells are placed in font units. -/
structure Scale where
  /-- The side of a cell. -/
  pixelSize : Int
  /-- The row whose top edge is the baseline. -/
  baselineRow : Int
  deriving DecidableEq, Repr

namespace Scale

/-- The horizontal place of the left edge of a column. -/
def x (scale : Scale) (column : Int) : Int :=
  column * scale.pixelSize

/-- The vertical place of the top edge of a row. -/
def y (scale : Scale) (row : Int) : Int :=
  (scale.baselineRow - row) * scale.pixelSize

end Scale

/-- The contour of a rectangle, clockwise from its top left corner. -/
def Rectangle.contour (scale : Scale) (rectangle : Rectangle) : Contour :=
  let left := scale.x rectangle.left
  let right := scale.x (rectangle.left + rectangle.width)
  let top := scale.y rectangle.top
  let bottom := scale.y (rectangle.top + rectangle.height)
  ⟨[⟨left, top⟩, ⟨right, top⟩, ⟨right, bottom⟩, ⟨left, bottom⟩]⟩

/-- The contours of rectangles in their order. -/
def Rectangle.contours (scale : Scale) (rectangles : List Rectangle) : List Contour :=
  rectangles.map (contour scale)

namespace Glyph

/-- How far a glyph moves the place of the next one: a ligature by its own width, as far as the
characters it replaces would, and every other glyph by the width that all of them share. -/
def advance (glyph : Glyph) (baseWidth pixelSize : Int) : Int :=
  (if glyph.isLigature then (glyph.grid.width : Int) else baseWidth) * pixelSize

/-- The outline of a glyph whose filled cells some rectangles cover. -/
def outline (glyph : Glyph) (rectangles : List Rectangle) (scale : Scale) (baseWidth : Int) :
    Outline where
  name := glyph.name
  label := glyph.label
  contours := Rectangle.contours scale rectangles
  advance := glyph.advance baseWidth scale.pixelSize
  encoding := glyph.encoding?
  weight := glyph.weight

end Glyph

end PixelFont
