import Mathlib.Data.Nat.Notation
import PixelFont.Build.Compilation
import PixelFont.Proofs.Settings.Record
import PixelFont.Proofs.Traversal

/-!
Workers compile a glyph as the program itself would. They are handed records of the glyph and of
the settings and hand back a record of the outline, and each of these reads back as what it was
written from. Main statement: `Compilation.outlineOrReason_eq`.
-/

set_option autoImplicit false

namespace PixelFont

namespace Value

variable {α : Type}

theorem optional_ofOption {write : α → Value} {read : Value → Option α}
    (hwrite : ∀ x, write x ≠ null) (hread : ∀ x, read (write x) = some x) (content : Option α) :
    (ofOption write content).optional read = some content := by
  cases content with
  | none => rfl
  | some x => rw [ofOption, optional.eq_2 read _ (hwrite x), hread x, Option.map_some]

theorem toTexts?_ofTexts (texts : List String) : (ofTexts texts).toTexts? = some texts :=
  Traversal.mapM_map_eq_some (fun _ ↦ rfl : ∀ content, (text content).asText? = some content) texts

theorem toGrid?_ofRows (grid : Grid) : (list (grid.map ofRow)).toGrid? = some grid := by
  refine Traversal.mapM_map_eq_some (fun row ↦ ?_) grid
  have hcells : isTruthy ∘ bool = id := funext fun _ ↦ rfl
  rw [ofRow, toRow?, List.map_map, hcells, List.map_id]

end Value

/-! ### Records -/

/-- A glyph written as a value reads back. -/
theorem Glyph.ofValue_toValue (glyph : Glyph) : Glyph.ofValue glyph.toValue = .ok glyph := by
  have hcodepoint := Value.optional_ofOption (by simp)
    (fun _ ↦ rfl : ∀ codepoint, (Value.int codepoint).asInt? = some codepoint) glyph.codepoint
  have hcomponents := Value.optional_ofOption (by simp [Value.ofTexts]) Value.toTexts?_ofTexts
    glyph.components
  have hsource : (Value.ofOption (fun path : Path ↦ .text path.toText) glyph.source).optional
      Value.asText? = some (glyph.source.map Path.toText) := by
    cases glyph.source <;> rfl
  have hpath : (glyph.source.map Path.toText).map Path.ofString = glyph.source := by
    cases glyph.source with
    | none => rfl
    | some path => exact congrArg some (Path.ofString_toText path)
  have hweight : (Value.text glyph.weight.name).toWeight = .ok glyph.weight := by
    simp [Value.toWeight, Value.asText?]
  have hkind : (Value.text glyph.kind.name).toGlyphKind = .ok glyph.kind := by
    simp [Value.toGlyphKind, Value.asText?]
  simp [Glyph.ofValue, Glyph.toValue, Value.asRecord?, Glyph.ofFields, Glyph.required,
    Glyph.fieldOr, Glyph.wellFormed, Value.lookup?, Value.asText?, hcodepoint, hcomponents,
    hsource, hpath, hweight, hkind, Value.toGrid?_ofRows, Value.toTexts?_ofTexts, Value.isTruthy,
    bind, Except.bind, pure, Except.pure]

theorem Contour.ofValue?_toValue (contour : Contour) :
    Contour.ofValue? contour.toValue = some contour := by
  have hpoints := Traversal.mapM_map_eq_some Point.ofValue?_toValue contour.points
  simp [Contour.ofValue?, Contour.toValue, Value.asRecord?, Value.lookup?, Value.asList?, hpoints]

/-- An outline written as a value reads back. -/
theorem Outline.ofValue?_toValue (outline : Outline) :
    Outline.ofValue? outline.toValue = some outline := by
  have hcontours := Traversal.mapM_map_eq_some Contour.ofValue?_toValue outline.contours
  have hencoding := Value.optional_ofOption (by simp)
    (fun _ ↦ rfl : ∀ codepoint, (Value.int codepoint).asInt? = some codepoint) outline.encoding
  simp [Outline.ofValue?, Outline.toValue, Value.asRecord?, Value.lookup?, Value.asList?,
    Value.asText?, Value.asInt?, hcontours, hencoding]

/-! ### Workers -/

namespace Compilation

theorem outlineByWorker_eq {value : Value} {settings : Settings}
    (hread : Settings.ofValue value = .value settings) (glyph : Glyph) :
    outlineByWorker settings glyph = (outline settings glyph).mapError RasterError.message := by
  rw [outlineByWorker, record, Glyph.ofValue_toValue, Settings.ofValue_toValue hread, outline]
  dsimp only
  cases glyph.grid.compact with
  | error error => rfl
  | ok rectangles =>
    dsimp only
    rw [Outline.ofValue?_toValue]
    rfl

/-- By however many workers a glyph is compiled, its outline or the reason is the same. -/
theorem outlineOrReason_eq {value : Value} {settings : Settings}
    (hread : Settings.ofValue value = .value settings) (glyph : Glyph) :
    outlineOrReason settings glyph = (outline settings glyph).mapError RasterError.message := by
  rw [outlineOrReason, outlineByWorker_eq hread]
  split
  · cases outline settings glyph <;> rfl
  · rfl

end Compilation

end PixelFont
