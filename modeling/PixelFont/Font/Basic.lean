import PixelFont.Ligature.Resolution
import PixelFont.Number.Total
import PixelFont.Outline.Basic

/-!
Fonts by what their tables say: the glyphs in order with their names, metrics and contours, the
character map, the line metrics, the naming strings and the ligatures. What the tables derive from
these, such as the bounds of all glyphs, is computed here, as is whether every number fits the
field of the table that stores it.
-/

set_option autoImplicit false

namespace PixelFont

/-- A glyph of a font. -/
structure FontGlyph where
  name : String
  advance : Int
  /-- The place of the left edge of the glyph. -/
  leftBearing : Int
  contours : List Contour
  deriving DecidableEq, Repr

/-- The place at which a naming string is stored. -/
inductive NameSlot where
  | family
  | style
  | uniqueIdentifier
  | fullName
  | version
  | postScriptName
  | designer
  | description
  | vendorUrl
  deriving DecidableEq, Repr

/-- The number of a place for a naming string. -/
def NameSlot.number : NameSlot → Nat
  | .family => 1
  | .style => 2
  | .uniqueIdentifier => 3
  | .fullName => 4
  | .version => 5
  | .postScriptName => 6
  | .designer => 9
  | .description => 10
  | .vendorUrl => 11

/-- A font. -/
structure Font where
  weight : Weight
  glyphs : List FontGlyph
  /-- The codepoints with the names of their glyphs. -/
  characters : List (Int × String)
  unitsPerEm : Int
  /-- The version as a number of 65536ths. -/
  revision : Int
  ascender : Int
  descender : Int
  lineGap : Int
  weightClass : Nat
  /-- The naming strings in the order of their places. -/
  names : List (NameSlot × String)
  /-- The sequences of glyphs with the ligatures that replace them. -/
  ligatures : List (List String × String)
  deriving DecidableEq, Repr

/-- The least box around the contours of a glyph. -/
def FontGlyph.box (glyph : FontGlyph) : Box :=
  Box.unionAll (glyph.contours.map Contour.box)

/-- The number of points of a glyph. -/
def FontGlyph.pointCount (glyph : FontGlyph) : Nat :=
  Number.total (fun contour ↦ contour.points.length) glyph.contours

namespace Font

/-- The glyphs that have a contour. -/
def drawnGlyphs (font : Font) : List FontGlyph :=
  font.glyphs.filter fun glyph ↦ !glyph.contours.isEmpty

/-- The least box around all glyphs that have a contour. -/
def bounds (font : Font) : Box :=
  Box.unionAll (font.drawnGlyphs.map FontGlyph.box)

/-- The greatest number of points of a glyph. -/
def maxPoints (font : Font) : Nat :=
  (font.glyphs.map FontGlyph.pointCount).foldl max 0

/-- The greatest number of contours of a glyph. -/
def maxContours (font : Font) : Nat :=
  (font.glyphs.map fun glyph ↦ glyph.contours.length).foldl max 0

/-- The style bits of the head table. -/
def macStyle (font : Font) : Nat :=
  match font.weight with
  | .regular => 0
  | .bold => 1

/-- The selection bits of the metrics table. -/
def selectionBits (font : Font) : Nat :=
  match font.weight with
  | .regular => 64
  | .bold => 32

/-- The characters in increasing order of their codepoints. -/
def characterMap (font : Font) : List (Int × String) :=
  font.characters.mergeSort fun first second ↦ first.1 ≤ second.1

/-- The ligatures in the order of their sequences. -/
def ligatureList (font : Font) : List (List String × String) :=
  font.ligatures.mergeSort fun first second ↦ !Text.listOfTextsBefore second.1 first.1

/-! ### Whether the numbers of a font fit its tables -/

/-- Whether a number fits a field of 16 bits with a sign. -/
def fitsShort (number : Int) : Bool :=
  -32768 ≤ number && number ≤ 32767

/-- Whether a number fits a field of 16 bits without a sign. -/
def fitsUnsigned (number : Int) : Bool :=
  0 ≤ number && number ≤ 65535

/-- The steps from each of some numbers to the next, from zero on. -/
def steps (before : Int) : List Int → List Int
  | [] => []
  | number :: numbers => (number - before) :: steps number numbers

/-- Whether the contours of a glyph fit: the coordinates, the steps between them, and the counts
of points and contours. -/
def contoursFit (glyph : FontGlyph) : Bool :=
  let points := glyph.contours.flatMap Contour.points
  let xs := points.map Point.x
  let ys := points.map Point.y
  (xs ++ ys ++ steps 0 xs ++ steps 0 ys).all fitsShort && glyph.pointCount ≤ 65535 &&
    glyph.contours.length ≤ 32767

/-- Whether the metrics of a glyph fit: the advance, the left bearing and, where the glyph has
contours, the right bearing and the extent. -/
def metricsFit (glyph : FontGlyph) : Bool :=
  let width := glyph.box.right - glyph.box.left
  fitsUnsigned glyph.advance && fitsShort glyph.leftBearing &&
    (glyph.contours.isEmpty ||
      (fitsShort (glyph.advance - glyph.leftBearing - width) &&
        fitsShort (glyph.leftBearing + width)))

/-- Whether the mean of the advances, rounded, fits; glyphs without an advance do not count. -/
def meanAdvanceFits (font : Font) : Bool :=
  let advances := (font.glyphs.map FontGlyph.advance).filter (0 < ·)
  2 * Number.total Int.toNat advances < 65535 * advances.length

/-- Whether the name of a glyph fits: at most 255 characters, of one byte each. -/
def nameFits (glyph : FontGlyph) : Bool :=
  glyph.name.length ≤ 255 && glyph.name.toList.all fun c ↦ c.toNat ≤ 255

/-- Whether everything in a font fits the tables that store it. -/
def fits (font : Font) : Bool :=
  font.glyphs.all (fun glyph ↦ contoursFit glyph && metricsFit glyph && nameFits glyph) &&
    font.meanAdvanceFits && fitsShort font.ascender && fitsShort font.descender &&
    fitsShort font.lineGap && fitsUnsigned font.unitsPerEm && font.revision ≤ 2147483647

end Font

end PixelFont
