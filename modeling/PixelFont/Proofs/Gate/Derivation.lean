import Mathlib.Data.List.Forall2
import PixelFont.Proofs.Gate.Forms

/-!
What the gate would find wrong with a derived bold glyph, which it never sees. Widening changes
neither the number of rows nor the length of any, and a derived glyph is of the kind, the codepoint
and the components of its original, so that all checks but one give the same defects
(`drawingDefects_deriveBold`). The exception is the check of the text, which is written anew from
the cells: whatever characters the original had are gone, and only a row without cells is not
written as it should be. Main statement: `passes_deriveBold`.
-/

set_option autoImplicit false

namespace PixelFont

namespace Gate

variable {raster : RasterSize} {glyph : Glyph}

/-! ### Single checks -/

theorem heightDefects_deriveBold :
    heightDefects raster glyph.deriveBold = heightDefects raster glyph := by
  have hheight : glyph.deriveBold.grid.height = glyph.grid.height := glyph.grid.height_widen
  rw [heightDefects, heightDefects, hheight]

theorem expectedWidth_deriveBold :
    expectedWidth raster glyph.deriveBold = expectedWidth raster glyph := by
  have hwidth : glyph.deriveBold.grid.width = glyph.grid.width := glyph.grid.width_widen
  rw [expectedWidth, expectedWidth, hwidth]
  rfl

/-- On a raster with a column, every glyph is expected to have one. -/
theorem expectedWidth_pos (hwidth : 0 < raster.width) : 0 < expectedWidth raster glyph := by
  unfold expectedWidth
  split
  · exact hwidth
  · split
    · rename_i hlabels
      have hlength : 0 < glyph.componentLabels.length := by
        simpa [List.length_pos_iff] using hlabels
      exact Nat.mul_pos hwidth hlength
    · split
      · rename_i hown
        exact hown.1
      · exact hwidth

theorem widthDefects_deriveBold :
    widthDefects raster glyph.deriveBold = widthDefects raster glyph := by
  have hwidth : glyph.deriveBold.grid.width = glyph.grid.width := glyph.grid.width_widen
  rw [widthDefects, widthDefects, expectedWidth_deriveBold, hwidth]
  rfl

theorem rowDefects_deriveBold :
    rowDefects raster glyph.deriveBold = rowDefects raster glyph := by
  have hgrid : glyph.deriveBold.grid = glyph.grid.map Grid.widenRow := rfl
  rw [rowDefects, rowDefects, expectedWidth_deriveBold, hgrid, List.zipIdx_map,
    List.filterMap_map]
  refine List.filterMap_congr fun entry _ ↦ ?_
  obtain ⟨row, number⟩ := entry
  show (if (Grid.widenRow row).length = _ then none
    else some (Defect.rowWidth number (Grid.widenRow row).length _)) = _
  rw [Grid.length_widenRow]

/-- The text of a derived glyph is as it should be if every row has a cell. -/
theorem lineDefects_deriveBold_eq_nil (hrows : ∀ row ∈ glyph.grid, 0 < row.length) :
    lineDefects glyph.deriveBold = [] := by
  rw [lineDefects_eq_nil_iff]
  have hlines : glyph.deriveBold.rasterLines =
      (glyph.grid.map Grid.widenRow).map Grid.rowText := rfl
  rw [hlines, List.forall_mem_map, List.forall_mem_map]
  intro row hrow
  rw [← isRasterLine_iff]
  apply isRasterLine_rowText
  rw [Grid.length_widenRow]
  exact hrows row hrow

/-! ### A glyph as a whole -/

theorem drawingDefects_deriveBold :
    drawingDefects raster glyph.deriveBold = drawingDefects raster glyph := by
  rw [drawingDefects, heightDefects_deriveBold, widthDefects_deriveBold, rowDefects_deriveBold]
  rfl

/-- On a raster with a column, a derived glyph has no defect exactly if its original is drawn
without one. -/
theorem glyphDefects_deriveBold_eq_nil_iff (hwidth : 0 < raster.width) :
    glyphDefects raster glyph.deriveBold = [] ↔ drawingDefects raster glyph = [] := by
  rw [← drawingDefects_deriveBold]
  constructor
  · intro hnone
    refine List.eq_nil_iff_forall_not_mem.mpr fun defect hdefect ↦ ?_
    have hmem := mem_glyphDefects_iff.mpr (Or.inl hdefect)
    rw [hnone] at hmem
    exact List.not_mem_nil hmem
  · intro hdrawn
    have hrows : rowDefects raster glyph = [] := by
      rw [drawingDefects_deriveBold] at hdrawn
      simp only [drawingDefects, List.append_eq_nil_iff] at hdrawn
      exact hdrawn.1.1.2
    have hlines : lineDefects glyph.deriveBold = [] := by
      refine lineDefects_deriveBold_eq_nil fun row hrow ↦ ?_
      rw [rowDefects_eq_nil_iff.mp hrows row hrow]
      exact expectedWidth_pos hwidth
    refine List.eq_nil_iff_forall_not_mem.mpr fun defect hdefect ↦ ?_
    rw [mem_glyphDefects_iff, hdrawn, hlines, or_self] at hdefect
    exact List.not_mem_nil hdefect

/-- Derivation keeps what the gate asks of a single glyph. Under settings that were read, a glyph
without defects gives a bold one without; a glyph whose only defects are of its text does so as
well, and no other. The derived glyph differs from its original in cells, text, weight and mark
alone, and its text shows its cells, row by row. -/
theorem passes_deriveBold {value : Value} {settings : Settings}
    (hread : Settings.ofValue value = .value settings) (glyph : Glyph) :
    let bold := glyph.deriveBold
    (glyphDefects settings.raster glyph = [] → glyphDefects settings.raster bold = []) ∧
      (glyphDefects settings.raster bold = [] ↔
        ∀ defect ∈ glyphDefects settings.raster glyph, defect.isOfText = true) ∧
      bold = { glyph with
        grid := glyph.grid.widen, rasterLines := bold.rasterLines, weight := .bold
        derived := true } ∧
      List.Forall₂ (fun row line ↦ line.toList = row.map fun cell ↦ if cell then 'X' else '.')
        bold.grid bold.rasterLines := by
  intro bold
  have hpasses : glyphDefects settings.raster bold = [] ↔
      ∀ defect ∈ glyphDefects settings.raster glyph, defect.isOfText = true :=
    (glyphDefects_deriveBold_eq_nil_iff (Settings.isAccepted_of_ofValue hread).width_pos).trans
      drawingDefects_eq_nil_iff
  refine ⟨fun hnone ↦ ?_, hpasses, rfl, ?_⟩
  · rw [hpasses, hnone]
    exact List.forall_mem_nil _
  · show List.Forall₂ _ bold.grid (bold.grid.map Grid.rowText)
    rw [List.forall₂_map_right_iff, List.forall₂_same]
    intro row _
    exact String.toList_ofList

/-- A ligature of two letters gives a bold one without defects, and it does so even where its text
was written in other characters. -/
theorem passes_deriveBold_pair :
    let pair : Glyph :=
      { label := "AA", codepoint := none, grid := [[true, false]], components := some ["A", "A"],
        kind := .ligature, rasterLines := ["X."] }
    let scribbled : Glyph := { pair with rasterLines := ["#-"] }
    Settings.ofValue Settings.oneCellRecord = .value Settings.oneCell ∧
      glyphDefects Settings.oneCell.raster pair = [] ∧
      glyphDefects Settings.oneCell.raster pair.deriveBold = [] ∧
      glyphDefects Settings.oneCell.raster scribbled = [.characters 1 "#-"] ∧
      glyphDefects Settings.oneCell.raster scribbled.deriveBold = [] ∧
      scribbled.deriveBold =
        { pair with
          grid := [[true, true]], rasterLines := ["XX"], weight := .bold, derived := true } := by
  intro pair scribbled
  have hread : Settings.ofValue Settings.oneCellRecord = .value Settings.oneCell :=
    Settings.ofValue_oneCellRecord
  have hpair : glyphDefects Settings.oneCell.raster pair = [] := by decide +kernel
  have hscribbled : glyphDefects Settings.oneCell.raster scribbled = [.characters 1 "#-"] := by
    decide +kernel
  have htext : ∀ defect ∈ glyphDefects Settings.oneCell.raster scribbled,
      defect.isOfText = true := by
    rw [hscribbled]
    decide
  obtain ⟨hpasses, -⟩ := passes_deriveBold hread pair
  obtain ⟨-, hexactly, hframe, -⟩ := passes_deriveBold hread scribbled
  exact ⟨hread, hpair, hpasses hpair, hscribbled, hexactly.mpr htext, hframe⟩

end Gate

end PixelFont
