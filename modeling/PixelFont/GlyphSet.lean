import PixelFont.Glyph.Basic
import PixelFont.Number.Binary64
import PixelFont.Settings.Basic
import PixelFont.Text.Quoted

/-!
Sets of glyphs that are computed and not drawn: block elements, which fill fractions of the raster
or shade it, and braille patterns, which set dots of two columns and four rows. The eighths of a
height are computed in floating point, so that a height may be too great for block elements.
-/

set_option autoImplicit false

namespace PixelFont

open Number

/-- A glyph given by which cells of its raster are filled, by row and column. -/
structure Pattern where
  codepoint : Int
  label : String
  isFilled : Nat → Nat → Bool

/-- The glyph of a pattern on a raster of the given width and height. -/
def Pattern.glyph (width height : Nat) (pattern : Pattern) : Glyph :=
  Glyph.withGrid { label := pattern.label, codepoint := some pattern.codepoint, grid := [] }
    (Grid.ofFunction width height pattern.isFilled)

/-- Why the eighths of a height cannot be counted. -/
inductive EighthsError where
  /-- An eighth of the height is beyond the greatest finite number. -/
  | oversizedEighth
  /-- Several eighths are, while one is not. -/
  | oversizedSum
  deriving DecidableEq, Repr

/-- The wording of an error. -/
def EighthsError.message : EighthsError → String
  | .oversizedEighth => "integer division result too large for a float"
  | .oversizedSum => "cannot convert float infinity to integer"

namespace BlockElement

/-- An eighth of a height in floating point. -/
def eighth (height : Nat) : Binary64 :=
  Binary64.ofFraction ⟨false, height, 8⟩

/-- The number of rows that come nearest to some eighths of a height, the even number of two. -/
def eighths (count height : Nat) : Except EighthsError Nat :=
  match (eighth height).toFraction?, ((Binary64.ofInt count).mul (eighth height)).toFraction? with
  | none, _ => .error .oversizedEighth
  | some _, none => .error .oversizedSum
  | some _, some value => .ok (roundHalfEven value.numerator value.denominator)

/-- The numbers of rows of one to seven eighths of a height. -/
def lowerRows (height : Nat) : Except EighthsError (List Nat) :=
  (List.range' 1 7).mapM fun count ↦ eighths count height

/-- The block elements for a raster of the given width and height, of which some eighths make the
given numbers of rows. -/
def patterns (width height : Nat) (rows : List Nat) : List Pattern :=
  let isLower (count row : Nat) : Bool := height - rows.getD (count - 1) 0 ≤ row
  [⟨0x2580, "upperhalf", fun row _ ↦ row < height / 2⟩,
    ⟨0x2581, "loweroneeighth", fun row _ ↦ isLower 1 row⟩,
    ⟨0x2582, "loweronequarter", fun row _ ↦ isLower 2 row⟩,
    ⟨0x2583, "lowerthreeeighths", fun row _ ↦ isLower 3 row⟩,
    ⟨0x2584, "lowerhalf", fun row _ ↦ isLower 4 row⟩,
    ⟨0x2585, "lowerfiveeighths", fun row _ ↦ isLower 5 row⟩,
    ⟨0x2586, "lowerthreequarters", fun row _ ↦ isLower 6 row⟩,
    ⟨0x2587, "lowerseveneighths", fun row _ ↦ isLower 7 row⟩,
    ⟨0x2588, "fullblock", fun _ _ ↦ true⟩,
    ⟨0x258C, "lefthalf", fun _ column ↦ column < width / 2⟩,
    ⟨0x2590, "righthalf", fun _ column ↦ width / 2 ≤ column⟩,
    ⟨0x2591, "lightshade", fun row column ↦ (row + column) % 4 == 0⟩,
    ⟨0x2592, "mediumshade", fun row column ↦ (row + column) % 2 == 0⟩,
    ⟨0x2593, "darkshade", fun row column ↦ (row + column) % 2 != 0⟩]

/-- The glyphs of the block elements for a raster. -/
def glyphs (raster : RasterSize) : Except EighthsError (List Glyph) :=
  (lowerRows raster.height).map fun rows ↦
    (patterns raster.width raster.height rows).map (Pattern.glyph raster.width raster.height)

end BlockElement

namespace Braille

/-- The codepoint of the pattern without dots. -/
def base : Nat := 0x2800

/-- The number of patterns. -/
def count : Nat := 256

/-- The width and the height of the only raster on which the dots have places. -/
def rasterSize : Nat × Nat := (8, 16)

/-- Whether a pattern has a dot, dots being counted from zero and a pattern by its offset from the
one without dots. Only the eight lowest binary digits of an offset count. -/
def hasDot (offset : Int) (dot : Nat) : Bool :=
  offset / (Nat.pow 2 dot : Nat) % 2 == 1

/-- The first row of each dot's two rows and the first column of its two columns. -/
def dots : List (Nat × Nat) :=
  [(3, 1), (6, 1), (9, 1), (3, 5), (6, 5), (9, 5), (12, 1), (12, 5)]

/-- Whether a pattern fills a cell. -/
def isFilled (offset : Int) (row column : Nat) : Bool :=
  dots.zipIdx.any fun ((top, left), dot) ↦
    hasDot offset dot && (row == top || row == top + 1) && (column == left || column == left + 1)

/-- The grid of a pattern. -/
def grid (offset : Int) : Grid :=
  Grid.ofFunction rasterSize.1 rasterSize.2 (isFilled offset)

/-- The label of a pattern: the numbers of its dots, counted from one. -/
def label (offset : Int) : String :=
  if offset = 0 then "brailleblank"
  else
    "braille" ++ String.join (((List.range 8).filter (hasDot offset)).map fun (dot : Nat) ↦
      toString (dot + 1))

/-- A pattern by its offset from the one without dots. -/
def pattern (offset : Nat) : Pattern :=
  ⟨(base + offset : Nat), label offset, isFilled offset⟩

/-- The glyphs of all patterns. -/
def glyphs : List Glyph :=
  (List.range count).map fun offset ↦ (pattern offset).glyph rasterSize.1 rasterSize.2

end Braille

/-- Why a set of glyphs cannot be drawn on a raster. -/
inductive GlyphSetError where
  /-- The dots of braille patterns have no places on it. -/
  | raster (reason : String)
  | eighths (error : EighthsError)
  deriving DecidableEq, Repr

/-- A set of glyphs that can be computed. -/
inductive GlyphSet where
  | blockElements
  | braille
  deriving DecidableEq, Repr

namespace GlyphSet

/-- The sets that there are. -/
def all : List GlyphSet := [blockElements, braille]

/-- The name of a set. -/
def name : GlyphSet → String
  | blockElements => "block-elements"
  | braille => "braille"

/-- The set of a name. -/
def ofName? (name : String) : Option GlyphSet :=
  all.find? fun set ↦ set.name == name

/-- The reason why braille patterns cannot be drawn on a raster. -/
def rasterReason (raster : RasterSize) : String :=
  "braille patterns need an " ++ toString Braille.rasterSize.1 ++ "x" ++
    toString Braille.rasterSize.2 ++ " grid, got " ++ toString raster.width ++ "x" ++
    toString raster.height

/-- The glyphs of a set for a raster, or why it cannot be drawn on one of that size. -/
def glyphs (raster : RasterSize) : GlyphSet → Except GlyphSetError (List Glyph)
  | blockElements =>
    match BlockElement.glyphs raster with
    | .ok glyphs => .ok glyphs
    | .error error => .error (.eighths error)
  | braille =>
    if (raster.width, raster.height) = Braille.rasterSize then .ok Braille.glyphs
    else .error (.raster (rasterReason raster))

end GlyphSet

end PixelFont
