import PixelFont.Proofs.Build.Workers
import PixelFont.Proofs.Raster.Widening

/-!
Outlines of glyphs whose rasters are rectangular. Such a glyph compiles, by however many workers, to
the outline of the runs of its raster stacked, and a font of such glyphs has the outlines of all of
them in order. Main statement: `Compilation.font_eq_ok`.
-/

set_option autoImplicit false

namespace PixelFont

namespace Compilation

/-- The outline of a glyph whose raster is rectangular. -/
def outlineOf (settings : Settings) (glyph : Glyph) : Outline :=
  glyph.outline (Span.stacked (Span.ofGrid glyph.grid)) settings.scale settings.raster.width

theorem map_name_outlineOf (settings : Settings) (glyphs : List Glyph) :
    (glyphs.map (outlineOf settings)).map Outline.name = glyphs.map Glyph.name := by
  rw [List.map_map]
  rfl

theorem filterMap_encoding_outlineOf (settings : Settings) (glyphs : List Glyph) :
    (glyphs.map (outlineOf settings)).filterMap Outline.encoding =
      glyphs.filterMap Glyph.encoding? := by
  rw [List.filterMap_map]
  rfl

/-- Where every glyph compiles, all of them do. -/
theorem compileAll_eq {compile : Glyph → Except String Outline} {outline : Glyph → Outline}
    {glyphs : List Glyph} (hcompile : ∀ glyph ∈ glyphs, compile glyph = .ok (outline glyph)) :
    compileAll compile glyphs = (glyphs.map fun glyph ↦ (glyph, outline glyph), none) := by
  induction glyphs with
  | nil => rfl
  | cons glyph glyphs ih =>
    have hrest := ih fun other hother ↦ hcompile other (List.mem_cons_of_mem _ hother)
    rw [compileAll, hcompile glyph List.mem_cons_self, hrest]
    rfl

theorem outline_eq_ok (settings : Settings) {glyph : Glyph}
    (hgrid : glyph.grid.isRectangular = true) :
    outline settings glyph = .ok (outlineOf settings glyph) := by
  rw [outline, Grid.compact_eq_ok hgrid]
  rfl

/-- Under settings that were read, a glyph whose raster is rectangular compiles. -/
theorem outlineOrReason_eq_ok {value : Value} {settings : Settings}
    (hread : Settings.ofValue value = .value settings) {glyph : Glyph}
    (hgrid : glyph.grid.isRectangular = true) :
    outlineOrReason settings glyph = .ok (outlineOf settings glyph) := by
  rw [outlineOrReason_eq hread, outline_eq_ok settings hgrid]
  rfl

/-- Where every glyph of a weight is rectangular, its outlines are all compiled. -/
theorem font_eq_ok {value : Value} {settings : Settings}
    (hread : Settings.ofValue value = .value settings) {corpus : List Glyph} {weight : Weight}
    (hgrids : ∀ glyph ∈ selected settings corpus weight, glyph.grid.isRectangular = true) :
    font settings corpus weight = .ok ⟨weight,
      (selected settings corpus weight).map (outlineOf settings),
      (resolution settings corpus weight).substitutions⟩ := by
  have hcompile : ∀ glyph ∈ selected settings corpus weight,
      outlineOrReason settings glyph = .ok (outlineOf settings glyph) :=
    fun glyph hglyph ↦ outlineOrReason_eq_ok hread (hgrids glyph hglyph)
  simp only [font, run, compileAll_eq hcompile, List.map_map]
  rfl

end Compilation

end PixelFont
