import PixelFont.Glyph.Name

/-!
Ligatures and what they replace. A ligature names its components by label; a label stands for the
encoded glyph that bears it, if exactly one does. A ligature all of whose components are found
becomes a substitution; the others are kept with the labels that were not found.
-/

set_option autoImplicit false

namespace PixelFont

/-- The replacement of a sequence of glyphs by a ligature, all given by their names. -/
structure Substitution where
  ligature : String
  components : List String
  /-- The codepoints of the components. -/
  codepoints : List Int := []
  deriving DecidableEq, Repr

/-- What becomes of the ligatures of a font. -/
structure Resolution where
  substitutions : List Substitution
  /-- The ligatures left out, with the labels that were not found. -/
  unresolved : List (Glyph × List String)
  deriving DecidableEq, Repr

namespace Resolution

/-- The encoded glyphs of a label. -/
def bearers (glyphs : List Glyph) (label : String) : List Glyph :=
  glyphs.filter fun glyph ↦ glyph.encoding?.isSome && glyph.label == label

/-- The glyph that a label stands for: the only encoded one that bears it. -/
def target? (glyphs : List Glyph) (label : String) : Option Glyph :=
  match bearers glyphs label with
  | [glyph] => some glyph
  | _ => none

/-- The components of a ligature that no glyph stands for. -/
def missing (glyphs : List Glyph) (ligature : Glyph) : List String :=
  ligature.componentLabels.filter fun label ↦ (target? glyphs label).isNone

/-- Whether every component of a ligature is found, and there is one. -/
def isResolved (glyphs : List Glyph) (ligature : Glyph) : Bool :=
  !ligature.componentLabels.isEmpty && (missing glyphs ligature).isEmpty

/-- The substitution of a ligature whose components are found. -/
def substitution (glyphs : List Glyph) (ligature : Glyph) : Substitution :=
  let targets := ligature.componentLabels.filterMap (target? glyphs)
  { ligature := ligature.name
    components := targets.map Glyph.name
    codepoints := targets.filterMap Glyph.codepoint }

/-- The resolution of the ligatures among the glyphs of a weight. -/
def ofGlyphs (glyphs : List Glyph) : Resolution :=
  let ligatures := glyphs.filter Glyph.isLigature
  { substitutions := (ligatures.filter (isResolved glyphs)).map (substitution glyphs)
    unresolved :=
      (ligatures.filter fun ligature ↦ !isResolved glyphs ligature).map fun ligature ↦
        (ligature, missing glyphs ligature) }

end Resolution

end PixelFont
