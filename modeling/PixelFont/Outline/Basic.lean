import PixelFont.Glyph.Basic
import PixelFont.Outline.Contour

/-!
Outlines: what a font holds of one glyph, in font units.
-/

set_option autoImplicit false

namespace PixelFont

/-- The outline of a glyph with its metrics. -/
structure Outline where
  /-- The name of the glyph in the font. -/
  name : String
  label : String
  contours : List Contour
  /-- How far the glyph moves the place of the next one. -/
  advance : Int
  /-- The codepoint by which text reaches the glyph. -/
  encoding : Option Int := none
  weight : Weight := .regular
  deriving DecidableEq, Repr

namespace Outline

/-- Whether an outline has no contour. -/
def isEmpty (outline : Outline) : Bool :=
  outline.contours.isEmpty

/-- The contours of an outline as a font stores them. -/
def storedContours (outline : Outline) : List Contour :=
  outline.contours.filterMap Contour.stored?

/-- The least box around an outline. -/
def box (outline : Outline) : Box :=
  Box.unionAll (outline.contours.map Contour.box)

end Outline

end PixelFont
