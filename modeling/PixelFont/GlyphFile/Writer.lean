import PixelFont.GlyphFile.Name
import PixelFont.Raster.Grid

/-!
The canonical text of a glyph: its label with the codepoint or the mark of a ligature, the weight
unless it is regular, the components if there are any, an empty line, and the raster.
-/

set_option autoImplicit false

namespace PixelFont

open Text

namespace Glyph

/-- What stands after the label. -/
def labelSuffix (glyph : Glyph) : String :=
  match glyph.isLigature, glyph.codepoint with
  | true, _ => " (ligature)"
  | false, some codepoint => " (U+" ++ Hexadecimal.padded 4 codepoint ++ ")"
  | false, none => ""

/-- The line that gives the weight, if it is not regular. -/
def weightLines (glyph : Glyph) : List String :=
  match glyph.weight with
  | .regular => []
  | .bold => ["# weight: " ++ Weight.bold.name]

/-- The line that gives the components, if there are any. -/
def componentsLines (glyph : Glyph) : List String :=
  match glyph.componentLabels with
  | [] => []
  | labels => ["# components: " ++ " ".intercalate labels]

/-- The header lines of a glyph. -/
def headerLines (glyph : Glyph) : List String :=
  ("# " ++ glyph.label ++ glyph.labelSuffix) :: (glyph.weightLines ++ glyph.componentsLines)

/-- The lines of a glyph's canonical text. -/
def fileLines (glyph : Glyph) : List String :=
  glyph.headerLines ++ "" :: glyph.grid.rowTexts

/-- The canonical text of a glyph. -/
def fileText (glyph : Glyph) : String :=
  "\n".intercalate glyph.fileLines ++ "\n"

end Glyph

end PixelFont
