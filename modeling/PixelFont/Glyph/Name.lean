import PixelFont.Glyph.Basic
import PixelFont.Text.Hexadecimal

/-!
Names of glyphs in a font. An encoded glyph is named for its codepoint, `uni` with at least four
digits in the first plane and `u` with at least five beyond. A ligature or an unencoded glyph is
named for its label: `lig.` and the label itself where that is made of letters and digits of
ASCII, and else the codepoints of its characters.
-/

set_option autoImplicit false

namespace PixelFont

open Text

namespace GlyphName

/-- The name of the empty glyph that stands first in every font. -/
def notdef : String := ".notdef"

/-- What the name of a glyph without a codepoint begins with. -/
def labelMark : String := "lig."

/-- The name of a glyph with a codepoint. -/
def ofCodepoint (codepoint : Int) : String :=
  if codepoint ≤ 0xFFFF then "uni" ++ Hexadecimal.padded 4 codepoint
  else "u" ++ Hexadecimal.padded 5 codepoint

/-- Whether a label is made of letters and digits of ASCII, of at least one. -/
def isPlainLabel (label : String) : Bool :=
  !label.toList.isEmpty && label.toList.all Char.isAlphanum

/-- The codepoints of the characters of a label. -/
def codes (label : String) : List String :=
  label.toList.map fun c ↦ Hexadecimal.padded 4 c.toNat

/-- The name of a glyph without a codepoint. -/
def ofLabel (label : String) : String :=
  labelMark ++ (if isPlainLabel label then label else "_".intercalate (codes label))

end GlyphName

namespace Glyph

/-- The codepoint by which text reaches a glyph; a ligature has none. -/
def encoding? (glyph : Glyph) : Option Int :=
  if glyph.isLigature then none else glyph.codepoint

/-- The name of a glyph in a font. -/
def name (glyph : Glyph) : String :=
  match glyph.encoding? with
  | some codepoint => GlyphName.ofCodepoint codepoint
  | none => GlyphName.ofLabel glyph.label

end Glyph

end PixelFont
