import PixelFont.Font.Basic
import PixelFont.Font.Compiled
import PixelFont.Glyph.Name
import PixelFont.Number.Binary64
import PixelFont.Settings.Basic
import PixelFont.Text.DecimalDigit

/-!
Assembly of a font from the outlines of one weight. A font begins with an empty glyph for
characters that it does not have. No two glyphs may share a name or a codepoint, a ligature may
replace only sequences of glyphs of the font, and no sequence may be replaced by two ligatures.
-/

set_option autoImplicit false

namespace PixelFont

open Number

/-- Why no font can be assembled. -/
inductive FontFault where
  | repeatedName (name : String)
  | repeatedCodepoint (codepoint : Int)
  /-- The tables of a font cannot hold the characters or the ligatures. -/
  | unstorable
  deriving DecidableEq, Repr

/-- The wording of a fault. -/
def FontFault.message : FontFault → String
  | .repeatedName name => "Glyph name '" ++ name ++ "' used by more than one glyph"
  | .repeatedCodepoint codepoint =>
    "Codepoint U+" ++ Text.Hexadecimal.padded 4 codepoint ++ " mapped more than once"
  | .unstorable => "The font cannot be stored"

namespace Font

/-- The first name or codepoint that an outline shares with one before it, or with those
given. -/
def clash? (names : List String) (codepoints : List Int) : List Outline → Option FontFault
  | [] => none
  | outline :: outlines =>
    if names.contains outline.name then some (.repeatedName outline.name)
    else
      match outline.encoding with
      | none => clash? (outline.name :: names) codepoints outlines
      | some codepoint =>
        if codepoints.contains codepoint then some (.repeatedCodepoint codepoint)
        else clash? (outline.name :: names) (codepoint :: codepoints) outlines

/-- The glyph for characters that a font does not have. -/
def missingGlyph (settings : Settings) : FontGlyph :=
  ⟨GlyphName.notdef, settings.advance, 0, []⟩

/-- The glyph of an outline. -/
def glyphOf (outline : Outline) : FontGlyph :=
  ⟨outline.name, outline.advance, outline.box.left, outline.storedContours⟩

/-- The name of a style. -/
def styleName : Weight → String
  | .regular => "Regular"
  | .bold => "Bold"

/-- The family and the style without spaces, by which files and printers know a font. -/
def compactName (naming : Naming) (weight : Weight) : String :=
  String.ofList (naming.family.toList.filter (· != ' ')) ++ "-" ++ styleName weight

/-- The naming strings of a font; the designer, the description and the address only if given. -/
def namingStrings (naming : Naming) (weight : Weight) : List (NameSlot × String) :=
  let style := styleName weight
  let compact := compactName naming weight
  let optional := [(NameSlot.designer, naming.designer), (.description, naming.description),
    (.vendorUrl, naming.url)]
  [(.family, naming.family), (.style, style),
    (.uniqueIdentifier, compact ++ ";" ++ naming.version),
    (.fullName, naming.family ++ " " ++ style), (.version, "Version " ++ naming.version),
    (.postScriptName, compact)] ++ optional.filter fun entry ↦ entry.2 != ""

/-- The number that a version denotes. -/
def versionNumber (version : String) : Binary64 :=
  let text := version.toList
  let fraction := (text.dropWhile (· != '.')).drop 1
  Binary64.ofDecimal false (Text.decimalNumber (text.takeWhile (· != '.') ++ fraction))
    (-fraction.length)

/-- A version as a number of 65536ths, if the number is finite. -/
def revision? (version : String) : Option Int :=
  let half := Binary64.ofDecimal false 5 (-1)
  (((versionNumber version).mul (Binary64.ofInt 65536)).add half).toFraction?.map Fraction.floor

/-- Whether the ligature feature can be stored: every rule replaces at least one glyph, all its
glyphs are in the font, and rules for the same sequence agree. -/
def ligaturesFit (names : List String) (substitutions : List Substitution) : Bool :=
  substitutions.all fun rule ↦
    !rule.components.isEmpty && (rule.ligature :: rule.components).all names.contains &&
      substitutions.all fun other ↦
        other.components != rule.components || other.ligature == rule.ligature

/-- Whether a codepoint can be stored in a character map. -/
def isMappable (codepoint : Int) : Bool :=
  0 ≤ codepoint && codepoint < 4294967296

/-- The font of the outlines and substitutions of one weight. -/
def assemble (settings : Settings) (compiled : CompiledFont) : Except FontFault Font :=
  match clash? [GlyphName.notdef] [] compiled.outlines with
  | some fault => .error fault
  | none =>
    let glyphs := missingGlyph settings :: compiled.outlines.map glyphOf
    let characters := compiled.outlines.filterMap fun outline ↦
      outline.encoding.map fun codepoint ↦ (codepoint, outline.name)
    match revision? settings.naming.version with
    | none => .error .unstorable
    | some revision =>
      if characters.all (fun entry ↦ isMappable entry.1) &&
          ligaturesFit (glyphs.map FontGlyph.name) compiled.substitutions then
        .ok {
          weight := compiled.weight
          glyphs, characters, revision
          unitsPerEm := settings.unitsPerEm
          ascender := settings.metrics.ascender
          descender := settings.metrics.descender
          lineGap := settings.metrics.lineGap
          weightClass := settings.weights.of compiled.weight
          names := namingStrings settings.naming compiled.weight
          ligatures := (compiled.substitutions.map fun rule ↦
            (rule.components, rule.ligature)).eraseDups }
      else .error .unstorable

end Font

end PixelFont
