import PixelFont.Font.Basic
import PixelFont.Value

/-!
Fonts as structured values: a record of what the tables say, in which a font can be looked at
without a reader of font files.
-/

set_option autoImplicit false

namespace PixelFont

/-- A glyph of a font as a structured value. -/
def FontGlyph.toValue (glyph : FontGlyph) : Value :=
  .record [
    ("name", .text glyph.name),
    ("advance", .int glyph.advance),
    ("leftBearing", .int glyph.leftBearing),
    ("contours", .list (glyph.contours.map fun contour ↦
      .list (contour.points.map fun point ↦ .list [.int point.x, .int point.y])))]

/-- A font as a structured value. -/
def Font.toValue (font : Font) : Value :=
  .record [
    ("names", .list (font.names.map fun entry ↦
      .list [.int entry.1.number, .text entry.2])),
    ("weightClass", .int font.weightClass),
    ("unitsPerEm", .int font.unitsPerEm),
    ("revision", .int font.revision),
    ("ascender", .int font.ascender),
    ("descender", .int font.descender),
    ("lineGap", .int font.lineGap),
    ("glyphs", .list (font.glyphs.map FontGlyph.toValue)),
    ("characters", .list (font.characterMap.map fun entry ↦
      .list [.int entry.1, .text entry.2])),
    ("ligatures", .list (font.ligatureList.map fun entry ↦
      .list [.list (entry.1.map .text), .text entry.2]))]

end PixelFont
