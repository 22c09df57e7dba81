import PixelFont.GlyphFile.Lines
import PixelFont.GlyphFile.Name

/-!
Reading a glyph from the text of its file. The header says what the glyph is; the name of the
file stands in for a label or a codepoint that the header does not give. The raster is taken as
it stands, whatever its shape.
-/

set_option autoImplicit false

namespace PixelFont

/-- What a header says of a glyph. -/
structure Header where
  label : String
  codepoint : Option Nat
  weight : Weight
  components : Option (List String)
  kind : GlyphKind
  deriving DecidableEq, Repr

namespace Header

/-- The stem of the name of a file, empty where there is no file. -/
def stemOf (path : Option Path) : List Char :=
  match path with
  | some path => GlyphFile.stem path.name
  | none => []

/-- The codepoint that stands with a label. -/
def markedCodepoint? : Option (String × LabelMark) → Option Nat
  | some (_, .codepoint codepoint) => some codepoint
  | _ => none

/-- The codepoint of a glyph: that of its label, or that of the stem where the label has none and
the glyph is no ligature. -/
def codepointOf (fields : HeaderFields) (stem : List Char) : Option Nat :=
  match markedCodepoint? fields.label with
  | some codepoint => some codepoint
  | none => if fields.isLigature then none else GlyphFile.codepoint? stem

/-- The header that fields make, together with the stem of the name of the file. -/
def ofFields (fields : HeaderFields) (stem : List Char) : Except HeaderFault Header :=
  let label :=
    match fields.label with
    | some (label, _) => label
    | none => GlyphFile.label stem
  if fields.label.isNone ∧ label = "" then .error .noLabel
  else
    .ok {
      label
      codepoint := codepointOf fields stem
      weight := fields.weight.getD .regular
      components := fields.components
      kind := if fields.isLigature then .ligature else .standalone }

/-- The header that header lines make. -/
def ofLines (lines : List (List Char)) (path : Option Path) : Except HeaderFault Header := do
  let fields ← HeaderFields.ofLines lines
  ofFields fields (stemOf path)

end Header

namespace GlyphFile

/-- The glyph that a text describes, in a file of the given path if there is one. -/
def parse (text : List Char) (path : Option Path) : Except HeaderFault Glyph := do
  let parts := sections text
  let header ← Header.ofLines parts.header path
  return {
    label := header.label
    codepoint := header.codepoint.map Int.ofNat
    grid := grid parts.raster
    weight := header.weight
    components := header.components
    kind := header.kind
    rasterLines := parts.raster.map String.ofList
    source := path }

end GlyphFile

end PixelFont
