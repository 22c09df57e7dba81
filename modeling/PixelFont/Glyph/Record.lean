import PixelFont.Glyph.Basic
import PixelFont.Value

/-!
Glyphs as structured values, the form in which they pass between processes. Reading asks for the
label, the codepoint and the grid, in this order, and gives every other field its default.
-/

set_option autoImplicit false

namespace PixelFont

/-- Why a structured value is no glyph. -/
inductive RecordError where
  /-- A field that every record must have is not there. -/
  | missing (key : String)
  /-- The value is the name of no weight. -/
  | notWeight (value : Value)
  /-- The value is the name of no kind of glyph. -/
  | notKind (value : Value)
  /-- The field holds a value of another form than it should. -/
  | malformed (key : String)
  deriving Repr

/-- The wording of an error. -/
def RecordError.message : RecordError → String
  | .missing key => Text.Quoted.quote key
  | .notWeight value => value.display ++ " is not a valid Weight"
  | .notKind value => value.display ++ " is not a valid GlyphKind"
  | .malformed key => "malformed field " ++ Text.Quoted.quote key

namespace Value

/-- The weight that a value names. -/
def toWeight (value : Value) : Except RecordError Weight :=
  match value.asText?.bind Weight.ofName? with
  | some weight => .ok weight
  | none => .error (.notWeight value)

/-- The kind of glyph that a value names. -/
def toGlyphKind (value : Value) : Except RecordError GlyphKind :=
  match value.asText?.bind GlyphKind.ofName? with
  | some kind => .ok kind
  | none => .error (.notKind value)

/-- The row of a grid that a value shows: a text, in which an `X` is filled, or a list, whose
items are filled as far as they count as true. -/
def toRow? : Value → Option (List Bool)
  | text row => some (Grid.ofRowText row.toList)
  | list cells => some (cells.map isTruthy)
  | _ => none

/-- The grid that a value shows. -/
def toGrid? (value : Value) : Option Grid :=
  value.asList?.bind (·.mapM toRow?)

/-- The texts that a list holds. -/
def toTexts? (value : Value) : Option (List String) :=
  value.asList?.bind (·.mapM asText?)

/-- A row of a grid as a value. -/
def ofRow (row : List Bool) : Value :=
  list (row.map bool)

/-- Texts as a value. -/
def ofTexts (texts : List String) : Value :=
  list (texts.map text)

/-- What a reading of the value gives; null counts as absent. -/
def optional {α : Type} (read : Value → Option α) : Value → Option (Option α)
  | null => some none
  | value => (read value).map some

end Value

namespace Glyph

/-- A glyph as a structured value. -/
def toValue (glyph : Glyph) : Value :=
  .record [
    ("label", .text glyph.label),
    ("codepoint", .ofOption .int glyph.codepoint),
    ("weight", .text glyph.weight.name),
    ("components", .ofOption .ofTexts glyph.components),
    ("kind", .text glyph.kind.name),
    ("grid", .list (glyph.grid.map .ofRow)),
    ("raster_lines", .ofTexts glyph.rasterLines),
    ("source_path", .ofOption (fun path ↦ .text path.toText) glyph.source),
    ("derived", .bool glyph.derived)]

/-- The value of a field that every record must have. -/
def required (fields : List (String × Value)) (key : String) : Except RecordError Value :=
  match Value.lookup? fields key with
  | some value => .ok value
  | none => .error (.missing key)

/-- The value of a field by the given reading. -/
def wellFormed {α : Type} (key : String) (result : Option α) : Except RecordError α :=
  match result with
  | some content => .ok content
  | none => .error (.malformed key)

/-- The value of a field, or another value where the record does not have it. -/
def fieldOr (fields : List (String × Value)) (key : String) (default : Value) : Value :=
  (Value.lookup? fields key).getD default

/-- The glyph that the fields of a record describe. -/
def ofFields (fields : List (String × Value)) : Except RecordError Glyph := do
  let label ← required fields "label"
  let codepoint ← required fields "codepoint"
  let grid ← required fields "grid"
  let label ← wellFormed "label" label.asText?
  let codepoint ← wellFormed "codepoint" (codepoint.optional Value.asInt?)
  let grid ← wellFormed "grid" grid.toGrid?
  let weight ← (fieldOr fields "weight" (.text Weight.regular.name)).toWeight
  let components ← wellFormed "components"
    ((fieldOr fields "components" .null).optional Value.toTexts?)
  let kind ← (fieldOr fields "kind" (.text GlyphKind.standalone.name)).toGlyphKind
  let rasterLines ← wellFormed "raster_lines" (fieldOr fields "raster_lines" (.list [])).toTexts?
  let source ← wellFormed "source_path"
    ((fieldOr fields "source_path" .null).optional Value.asText?)
  return {
    label, codepoint, grid, weight, components, kind, rasterLines
    source := source.map Path.ofString
    derived := (fieldOr fields "derived" (.bool false)).isTruthy }

/-- The glyph that a structured value describes. -/
def ofValue (value : Value) : Except RecordError Glyph :=
  match value.asRecord? with
  | some fields => ofFields fields
  | none => .error (.malformed "glyph")

end Glyph

end PixelFont
