import PixelFont.Proofs.Gate.Advance
import PixelFont.Proofs.Outline.Region

/-!
Outlines keep to their place in a line. The gate asks that a raster is as wide as its glyph
advances, for characters and ligatures each by their own rule, and that it is as high as all of
them; rectangles do not leave the raster, and neither does a stroke that is widened. So no outline
reaches into that of its neighbours or of the lines above and below. Main statement:
`staysWithin_of_isValid_report`.
-/

set_option autoImplicit false

namespace PixelFont

namespace Gate

/-- The raster of a glyph that is drawn as it should be is as wide as the glyph advances, and goes
from the rows above the baseline to those below it. -/
theorem IsDrawn.box_eq {settings : Settings} {glyph : Glyph} (hheight : 0 < settings.raster.height)
    (hdrawn : IsDrawn settings.raster glyph) :
    settings.scale.box 0 0 glyph.grid.width glyph.grid.height =
      ⟨0, (settings.raster.baselineRow - settings.raster.height) * settings.metrics.pixelSize,
        (Compilation.outlineOf settings glyph).advance,
        settings.raster.baselineRow * settings.metrics.pixelSize⟩ := by
  have hwidth := width_eq_of_rows hheight hdrawn.height hdrawn.width
  rw [hdrawn.advance_outlineOf hheight, hwidth, Grid.height, hdrawn.height]
  simp [Scale.box, Scale.x, Scale.y, Settings.scale]

/-- Behind the gate, every point of every outline of either weight lies between the left edge and
the advance of the outline, and between the bottom and the top of the raster, a band as high as the
em square. So does all that the outline covers. -/
theorem staysWithin_of_isValid_report {value : Value} {session : Session}
    (hread : Settings.ofValue value = .value session.settings) {view : Viewpoint}
    {corpus : Corpus} (hvalid : (report session.settings view corpus).isValid = true)
    (weight : Weight) :
    let pixelSize : Int := session.settings.metrics.pixelSize
    let baseline : Int := session.settings.raster.baselineRow
    let height : Int := session.settings.raster.height
    baseline * pixelSize - (baseline - height) * pixelSize = session.settings.unitsPerEm ∧
      ∃ compiled, (session.compile corpus.glyphs weight).result = .ok compiled ∧
        ∀ outline ∈ compiled.outlines, outline.StaysWithin
          ⟨0, (baseline - height) * pixelSize, outline.advance, baseline * pixelSize⟩ := by
  intro pixelSize baseline height
  have hpublishable := isPublishable_of_isValid hread hvalid
  have haccepted := Settings.isAccepted_of_ofValue hread
  have hpixel : 0 < session.settings.scale.pixelSize := Int.natCast_pos.mpr haccepted.pixelSize_pos
  have hband : baseline * pixelSize - (baseline - height) * pixelSize =
      session.settings.unitsPerEm := by
    rw [← Int.sub_mul, Int.sub_sub_self, Int.mul_comm]
    rfl
  refine ⟨hband, _, hpublishable.result_compile hread weight, ?_⟩
  refine List.forall_mem_map.mpr fun form hform ↦ ?_
  have hdrawn := hpublishable.isDrawn_selected weight haccepted.width_pos form hform
  rw [← hdrawn.box_eq haccepted.height_pos]
  exact Compilation.staysWithin_outlineOf hpixel hdrawn.isRectangular

/-- The bold forms of a letter and of a ligature of two of it, on a raster of two columns and of two
rows of which one is below the baseline, stay within their advance and the two rows. -/
theorem staysWithin_of_isValid_report_pair :
    let value : Value := .record [
      ("grid", .record [("width", .int 2), ("height", .int 2), ("baseline_row", .int 1)]),
      ("corpus", .record [("required_start", .int 65), ("required_end", .int 65)])]
    let settings : Settings :=
      { raster := ⟨2, 2, 1⟩, corpus := { requiredStart := 65, requiredEnd := 65 } }
    let session : Session := { settings, tree := FileTree.empty [] }
    let letter : Glyph :=
      { label := "A", codepoint := some 65, grid := [[true, false], [false, true]],
        rasterLines := ["X.", ".X"] }
    let pair : Glyph :=
      { label := "AA", codepoint := none, components := some ["A", "A"], kind := .ligature
        grid := [[true, false, false, true], [false, false, false, true]],
        rasterLines := ["X..X", "...X"] }
    let corpus : Corpus := { glyphs := [letter, pair] }
    Settings.ofValue value = .value session.settings ∧
      (report session.settings session.view corpus).isValid = true ∧
      settings.unitsPerEm = 120 - -120 ∧
      ∃ compiled, (session.compile corpus.glyphs .bold).result = .ok compiled ∧
        ∀ outline ∈ compiled.outlines, outline.StaysWithin ⟨0, -120, outline.advance, 120⟩ := by
  intro value settings session letter pair corpus
  have hread : Settings.ofValue value = .value session.settings := rfl
  have hvalid : (report session.settings session.view corpus).isValid = true := by decide +kernel
  obtain ⟨hband, hcompiled⟩ := staysWithin_of_isValid_report hread hvalid .bold
  exact ⟨hread, hvalid, hband.symm, hcompiled⟩

end Gate

end PixelFont
