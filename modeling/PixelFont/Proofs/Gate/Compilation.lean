import Mathlib.Data.List.Forall2
import PixelFont.Build.Session
import PixelFont.Proofs.Gate.Soundness

/-!
What is compiled behind the gate. No glyph of a corpus that passes fails to compile: the glyphs
looked at are rectangular, their bold forms are as well, and a ligature that was passed over is not
compiled. The outlines stand in the order of the glyphs of the weight, each with the label of its
glyph and a contour for every rectangle of its raster. Main statement: `compile_of_isValid_report`.
-/

set_option autoImplicit false

namespace PixelFont

/-- An outline depicts a glyph in a weight: it bears the label of the glyph, is of that weight, and
has at a scale the contour of every rectangle of the raster, in their order. -/
structure Outline.Depicts (scale : Scale) (weight : Weight) (glyph : Glyph) (outline : Outline) :
    Prop where
  label : outline.label = glyph.label
  weight : outline.weight = weight
  contours : ∃ rectangles, glyph.grid.compact = .ok rectangles ∧
    outline.contours = rectangles.map (Rectangle.contour scale)

namespace Compilation

theorem depicts_outlineOf (settings : Settings) {weight : Weight} {glyph : Glyph}
    (hweight : glyph.weight = weight) (hgrid : glyph.grid.isRectangular = true) :
    (outlineOf settings glyph).Depicts settings.scale weight glyph where
  label := rfl
  weight := hweight
  contours := ⟨_, Grid.compact_eq_ok hgrid, rfl⟩

/-- The glyphs compiled for a weight are of that weight. -/
theorem weight_of_mem_selected {settings : Settings} {corpus : List Glyph} {weight : Weight}
    {form : Glyph} (hform : form ∈ selected settings corpus weight) : form.weight = weight :=
  Weight.weight_of_mem_select (List.mem_of_mem_filter hform)

end Compilation

namespace Gate

/-- A session compiles every weight of a corpus that passes the gate: an outline depicts each glyph
of the weight, in their order, ligatures being left out where they are disabled. -/
theorem compile_of_isValid_report {value : Value} {session : Session}
    (hread : Settings.ofValue value = .value session.settings) {view : Viewpoint}
    {corpus : Corpus} (hvalid : (report session.settings view corpus).isValid = true)
    (weight : Weight) :
    ∃ compiled, (session.compile corpus.glyphs weight).result = .ok compiled ∧
      compiled.weight = weight ∧
      List.Forall₂ (Outline.Depicts session.settings.scale weight)
        ((weight.select corpus.glyphs).filter fun glyph ↦
          session.settings.corpus.ligatures || !glyph.isLigature)
        compiled.outlines := by
  have hpublishable := isPublishable_of_isValid hread hvalid
  have hgrids := hpublishable.isRectangular_selected weight
  refine ⟨_, congrArg (Except.mapError BuildFault.glyph) (Compilation.font_eq_ok hread hgrids),
    rfl, ?_⟩
  change List.Forall₂ _ (Compilation.selected session.settings corpus.glyphs weight) _
  rw [List.forall₂_map_right_iff, List.forall₂_same]
  exact fun form hform ↦ Compilation.depicts_outlineOf session.settings
    (Compilation.weight_of_mem_selected hform) (hgrids form hform)

/-- Where ligatures are disabled, a ragged one does not keep two workers from compiling the bold
form that a letter is given. -/
theorem compile_of_isValid_report_ligaturesDisabled :
    let value : Value := .record [
      ("grid", .record [("width", .int 2), ("height", .int 2), ("baseline_row", .int 1)]),
      ("corpus", .record [("required_start", .int 65), ("required_end", .int 65),
        ("ligatures", .bool false)]),
      ("processing", .record [("max_workers", .int 2)])]
    let settings : Settings :=
      { raster := ⟨2, 2, 1⟩, processing := ⟨some 2⟩
        corpus := { requiredStart := 65, requiredEnd := 65, ligatures := false } }
    let session : Session := { settings, tree := FileTree.empty [] }
    let letter : Glyph :=
      { label := "A", codepoint := some 65, grid := [[true, false], [false, false]],
        rasterLines := ["X.", ".."] }
    let ragged : Glyph :=
      { label := "AA", codepoint := none, grid := [[true], [true, true]], kind := .ligature }
    let corpus : Corpus := { glyphs := [letter, ragged] }
    Settings.ofValue value = .value session.settings ∧
      (report session.settings session.view corpus).isValid = true ∧
      ∃ compiled, (session.compile corpus.glyphs .bold).result = .ok compiled ∧
        List.Forall₂ (Outline.Depicts ⟨120, 1⟩ .bold)
          [{ letter with
            grid := [[true, true], [false, false]], rasterLines := ["XX", ".."],
            weight := .bold, derived := true }]
          compiled.outlines := by
  intro value settings session letter ragged corpus
  have hread : Settings.ofValue value = .value session.settings := rfl
  have hvalid : (report session.settings session.view corpus).isValid = true := by
    decide +kernel
  obtain ⟨compiled, hcompiled, -, hdepicts⟩ := compile_of_isValid_report hread hvalid .bold
  exact ⟨hread, hvalid, compiled, hcompiled, hdepicts⟩

end Gate

end PixelFont
