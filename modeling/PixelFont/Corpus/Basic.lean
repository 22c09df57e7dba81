import PixelFont.Glyph.Basic

/-!
What reading a set of directories gives: the glyphs of the files that could be read, and for the
others the reason why not, both in the order of the paths.
-/

set_option autoImplicit false

namespace PixelFont

/-- A file that could not be read as a glyph. -/
structure Rejection where
  path : Path
  reason : String
  deriving DecidableEq, Repr

/-- The glyphs read from some directories and the files rejected. -/
structure Corpus where
  glyphs : List Glyph := []
  rejections : List Rejection := []
  deriving DecidableEq, Repr

end PixelFont
