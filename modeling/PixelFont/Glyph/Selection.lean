import PixelFont.Glyph.Basic

/-!
The glyphs of one weight out of a corpus. Regular glyphs stand for themselves. The bold font takes
every glyph drawn for it, and derives the others from the regular glyphs whose character no bold
glyph draws. The order is that of the corpus.
-/

set_option autoImplicit false

namespace PixelFont

namespace Glyph

/-- The identities of the glyphs of a corpus that are drawn bold. -/
def boldIdentities (corpus : List Glyph) : List Identity :=
  (corpus.filter (·.weight == .bold)).map identity

/-- The bold form of a glyph, given the identities of those that are drawn bold: a bold glyph
itself, and a derived one where none is drawn. -/
def boldForm? (drawn : List Identity) (glyph : Glyph) : Option Glyph :=
  if glyph.weight == .bold then some glyph
  else if drawn.contains glyph.identity then none
  else some glyph.deriveBold

end Glyph

/-- The glyphs of a weight out of a corpus. -/
def Weight.select (corpus : List Glyph) : Weight → List Glyph
  | .regular => corpus.filter (·.weight == .regular)
  | .bold => corpus.filterMap (Glyph.boldForm? (Glyph.boldIdentities corpus))

end PixelFont
