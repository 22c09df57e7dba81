import PixelFont.Ligature.Resolution
import PixelFont.Number.Total
import PixelFont.Outline.Basic

/-!
What a font of one weight is assembled from: the outlines of its glyphs in their order, and the
ligatures it replaces sequences by.
-/

set_option autoImplicit false

namespace PixelFont

/-- The outlines and substitutions of one weight. -/
structure CompiledFont where
  weight : Weight
  outlines : List Outline
  substitutions : List Substitution := []
  deriving DecidableEq, Repr

/-- The number of rectangles drawn in all outlines. -/
def CompiledFont.rectangleCount (compiled : CompiledFont) : Nat :=
  Number.total (fun outline ↦ outline.contours.length) compiled.outlines

end PixelFont
