import PixelFont.Glyph.Record
import PixelFont.Outline.Basic

/-!
Outlines as structured values, the form in which they pass between processes.
-/

set_option autoImplicit false

namespace PixelFont

namespace Point

/-- A point as a structured value. -/
def toValue (point : Point) : Value :=
  .record [("x", .int point.x), ("y", .int point.y)]

/-- The point that a structured value describes. -/
def ofValue? (value : Value) : Option Point := do
  let fields ← value.asRecord?
  let x ← (Value.lookup? fields "x").bind Value.asInt?
  let y ← (Value.lookup? fields "y").bind Value.asInt?
  return ⟨x, y⟩

/-- A point written as a value reads back. -/
@[simp] theorem ofValue?_toValue (point : Point) : ofValue? point.toValue = some point :=
  rfl

end Point

namespace Contour

/-- A contour as a structured value. -/
def toValue (contour : Contour) : Value :=
  .record [("points", .list (contour.points.map Point.toValue))]

/-- The contour that a structured value describes. -/
def ofValue? (value : Value) : Option Contour := do
  let fields ← value.asRecord?
  let items ← (Value.lookup? fields "points").bind Value.asList?
  let points ← items.mapM Point.ofValue?
  return ⟨points⟩

end Contour

namespace Outline

/-- An outline as a structured value. -/
def toValue (outline : Outline) : Value :=
  .record [
    ("name", .text outline.name),
    ("label", .text outline.label),
    ("contours", .list (outline.contours.map Contour.toValue)),
    ("advance_width", .int outline.advance),
    ("unicode", .ofOption .int outline.encoding),
    ("weight", .text outline.weight.name)]

/-- The outline that a structured value describes. -/
def ofValue? (value : Value) : Option Outline := do
  let fields ← value.asRecord?
  let name ← (Value.lookup? fields "name").bind Value.asText?
  let label ← (Value.lookup? fields "label").bind Value.asText?
  let items ← (Value.lookup? fields "contours").bind Value.asList?
  let contours ← items.mapM Contour.ofValue?
  let advance ← (Value.lookup? fields "advance_width").bind Value.asInt?
  let encoding ← (Value.lookup? fields "unicode").bind (Value.optional Value.asInt?)
  let weight ← ((Value.lookup? fields "weight").bind Value.asText?).bind Weight.ofName?
  return { name, label, contours, advance, encoding, weight }

end Outline

end PixelFont
