import PixelFont.Path
import PixelFont.Raster.Widening

/-!
Glyph sources: one drawn character or ligature with what its file says about it. A record is
never changed; deriving a bold glyph gives a new one.
-/

set_option autoImplicit false

namespace PixelFont

/-- The weight that a glyph is drawn for. -/
inductive Weight where
  | regular
  | bold
  deriving DecidableEq, Repr

namespace Weight

/-- The name of a weight. -/
def name : Weight → String
  | regular => "regular"
  | bold => "bold"

/-- The weight of a name. -/
def ofName? : String → Option Weight
  | "regular" => some regular
  | "bold" => some bold
  | _ => none

/-- A weight is found by its name. -/
@[simp] theorem ofName?_name (weight : Weight) : ofName? weight.name = some weight := by
  cases weight <;> rfl

end Weight

/-- Whether a glyph draws a single character or replaces several. -/
inductive GlyphKind where
  | standalone
  | ligature
  deriving DecidableEq, Repr

namespace GlyphKind

/-- The name of a kind. -/
def name : GlyphKind → String
  | standalone => "standalone"
  | ligature => "ligature"

/-- The kind of a name. -/
def ofName? : String → Option GlyphKind
  | "standalone" => some standalone
  | "ligature" => some ligature
  | _ => none

/-- A kind is found by its name. -/
@[simp] theorem ofName?_name (kind : GlyphKind) : ofName? kind.name = some kind := by
  cases kind <;> rfl

end GlyphKind

/-- What the weights of one character share: its codepoint, or its label where it is a ligature
or has none. -/
inductive Identity where
  | label (label : String)
  | codepoint (codepoint : Int)
  deriving DecidableEq, Repr

/-- A glyph source. -/
structure Glyph where
  /-- The short name by which ligatures refer to the glyph. -/
  label : String
  codepoint : Option Int
  grid : Grid
  weight : Weight := .regular
  /-- The labels of the glyphs that a ligature replaces. -/
  components : Option (List String) := none
  kind : GlyphKind := .standalone
  /-- The raster as it stands in the source. -/
  rasterLines : List String := []
  source : Option Path := none
  /-- Whether the glyph is derived from one of another weight. -/
  derived : Bool := false
  deriving DecidableEq, Repr

namespace Glyph

/-- Whether a glyph replaces several characters. -/
def isLigature (glyph : Glyph) : Bool :=
  glyph.kind == .ligature

theorem isLigature_eq_true_iff {glyph : Glyph} :
    glyph.isLigature = true ↔ glyph.kind = .ligature := by
  rw [isLigature, beq_iff_eq]

theorem isLigature_eq_false_iff {glyph : Glyph} :
    glyph.isLigature = false ↔ glyph.kind = .standalone := by
  rw [isLigature]
  cases glyph.kind <;> simp

/-- The labels of the components, none where the glyph declares none. -/
def componentLabels (glyph : Glyph) : List String :=
  glyph.components.getD []

/-- What the weights of the glyph's character share. -/
def identity (glyph : Glyph) : Identity :=
  match glyph.isLigature, glyph.codepoint with
  | false, some codepoint => .codepoint codepoint
  | _, _ => .label glyph.label

/-- How messages refer to a glyph: by its file, or by its label where it has none. -/
def reference (glyph : Glyph) : String :=
  match glyph.source with
  | some path => path.toText
  | none => glyph.label

/-- The glyph with another grid, whose text becomes its raster. -/
def withGrid (glyph : Glyph) (grid : Grid) : Glyph :=
  { glyph with grid, rasterLines := grid.rowTexts }

/-- The bold glyph derived from a glyph by widening its strokes. -/
def deriveBold (glyph : Glyph) : Glyph :=
  { glyph.withGrid glyph.grid.widen with weight := .bold, derived := true }

end Glyph

end PixelFont
