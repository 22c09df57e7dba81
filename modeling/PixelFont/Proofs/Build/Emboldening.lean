import Mathlib.Data.List.Forall2
import PixelFont.Build.Session
import PixelFont.Proofs.Ligature.Resolution
import PixelFont.Proofs.Outline.Region
import PixelFont.Proofs.Raster.Widening

/-!
The bold font of a corpus in which nothing is drawn bold. Its glyphs are the bold forms of the
regular ones, one for one. A bold form differs from its glyph in the cells alone, of which it fills
some more, and no raster becomes wider or higher. Names, advances and substitutions do not depend on
the cells, so that the two fonts can be exchanged for each other without moving any text. Main
statement: `compile_bold_of_regular`.
-/

set_option autoImplicit false

namespace PixelFont

/-- A bold outline follows a regular one of a glyph: both come under the same name, label and
codepoint and advance as far, and contours around boxes cover with the bold one what they cover with
the regular one, within the box of the raster. -/
structure Outline.Follows (settings : Settings) (glyph : Glyph) (regular bold : Outline) :
    Prop where
  drawn : Compilation.outline settings glyph = .ok regular
  derived : Compilation.outline settings glyph.deriveBold = .ok bold
  name : bold.name = regular.name
  label : bold.label = regular.label
  advance : bold.advance = regular.advance
  encoding : bold.encoding = regular.encoding
  contours : ∀ contour ∈ regular.contours ++ bold.contours, contour.RunsAroundBox
  region : regular.region ⊆ bold.region
  inside : bold.region ⊆ (settings.scale.box 0 0 glyph.grid.width glyph.grid.height).region

/-! ### Glyphs -/

section Regular

variable {glyphs : List Glyph} (hregular : ∀ glyph ∈ glyphs, glyph.weight = .regular)
include hregular

theorem Weight.select_regular_of_regular : Weight.regular.select glyphs = glyphs :=
  List.filter_eq_self.mpr fun glyph hglyph ↦ beq_iff_eq.mpr (hregular glyph hglyph)

theorem Glyph.boldIdentities_of_regular : Glyph.boldIdentities glyphs = [] := by
  have hnone : glyphs.filter (·.weight == .bold) = [] := by
    refine List.filter_eq_nil_iff.mpr fun glyph hglyph ↦ ?_
    rw [hregular glyph hglyph]
    decide
  rw [boldIdentities, hnone, List.map_nil]

theorem Weight.select_bold_of_regular :
    Weight.bold.select glyphs = glyphs.map Glyph.deriveBold := by
  rw [Weight.select, Glyph.boldIdentities_of_regular hregular, ← List.filterMap_eq_map]
  refine List.filterMap_congr fun glyph hglyph ↦ ?_
  rw [Glyph.boldForm?, hregular glyph hglyph]
  rfl

theorem Compilation.selected_bold_of_regular (settings : Settings) :
    selected settings glyphs .bold = (selected settings glyphs .regular).map Glyph.deriveBold := by
  rw [selected, selected, Weight.select_bold_of_regular hregular,
    Weight.select_regular_of_regular hregular, List.filter_map]
  rfl

end Regular

/-! ### Substitutions -/

namespace Resolution

variable (glyphs : List Glyph)

theorem bearers_map_deriveBold (label : String) :
    bearers (glyphs.map Glyph.deriveBold) label = (bearers glyphs label).map Glyph.deriveBold := by
  rw [bearers, bearers, List.filter_map]
  rfl

theorem target?_map_deriveBold (label : String) :
    target? (glyphs.map Glyph.deriveBold) label =
      (target? glyphs label).map Glyph.deriveBold := by
  rw [target?, target?, bearers_map_deriveBold]
  cases bearers glyphs label with
  | nil => rfl
  | cons first others => cases others <;> rfl

theorem isResolved_map_deriveBold (ligature : Glyph) :
    isResolved (glyphs.map Glyph.deriveBold) ligature.deriveBold = isResolved glyphs ligature := by
  simp only [isResolved, missing, target?_map_deriveBold, Option.isNone_map]
  rfl

theorem resolved_map_deriveBold :
    resolved (glyphs.map Glyph.deriveBold) = (resolved glyphs).map Glyph.deriveBold := by
  rw [resolved, resolved, List.filter_map, List.filter_map]
  congr 1
  exact List.filter_congr fun ligature _ ↦ isResolved_map_deriveBold glyphs ligature

theorem substitution_map_deriveBold (ligature : Glyph) :
    substitution (glyphs.map Glyph.deriveBold) ligature.deriveBold =
      substitution glyphs ligature := by
  have htargets : ligature.componentLabels.filterMap (target? (glyphs.map Glyph.deriveBold)) =
      (ligature.componentLabels.filterMap (target? glyphs)).map Glyph.deriveBold := by
    rw [List.map_filterMap]
    exact List.filterMap_congr fun label _ ↦ target?_map_deriveBold glyphs label
  have hlabels : ligature.deriveBold.componentLabels = ligature.componentLabels := rfl
  rw [substitution, substitution, hlabels, htargets, List.map_map, List.filterMap_map]
  rfl

/-- Bold forms are substituted as their glyphs are. -/
theorem substitutions_map_deriveBold :
    (ofGlyphs (glyphs.map Glyph.deriveBold)).substitutions =
      (ofGlyphs glyphs).substitutions := by
  rw [substitutions_ofGlyphs, substitutions_ofGlyphs, resolved_map_deriveBold, List.map_map]
  exact List.map_congr_left fun ligature _ ↦ substitution_map_deriveBold glyphs ligature

end Resolution

namespace Compilation

/-! ### Outlines -/

theorem follows_outlineOf {settings : Settings} (hpixel : 0 < settings.scale.pixelSize)
    {glyph : Glyph} (hgrid : glyph.grid.isRectangular = true) :
    Outline.Follows settings glyph (outlineOf settings glyph)
      (outlineOf settings glyph.deriveBold) := by
  have hbold : glyph.deriveBold.grid.isRectangular = true := Grid.isRectangular_widen hgrid
  have hwidth : glyph.deriveBold.grid.width = glyph.grid.width := glyph.grid.width_widen
  have hheight : glyph.deriveBold.grid.height = glyph.grid.height := glyph.grid.height_widen
  constructor
  · exact outline_eq_ok settings hgrid
  · exact outline_eq_ok settings hbold
  · rfl
  · rfl
  · show glyph.deriveBold.advance _ _ = glyph.advance _ _
    rw [Glyph.advance, hwidth]
    rfl
  · rfl
  · rw [List.forall_mem_append]
    exact ⟨runsAroundBox_outlineOf hpixel, runsAroundBox_outlineOf hpixel⟩
  · intro point hpoint
    obtain ⟨row, column, hfills, hcell⟩ := (mem_region_outlineOf_iff hpixel hgrid).mp hpoint
    exact (mem_region_outlineOf_iff hpixel hbold).mpr
      ⟨row, column, Grid.fills_widen hfills, hcell⟩
  · rw [← hwidth, ← hheight]
    exact (staysWithin_outlineOf hpixel hbold).region

end Compilation

/-- Of regular glyphs whose rasters are rectangular, a session compiles both weights, whether or not
bold forms are asked for. Each font has one outline for every glyph selected, in the order of the
glyphs; outline by outline the bold font follows the regular one, and the substitutions are the
same. -/
theorem Session.compile_bold_of_regular {value : Value} {session : Session}
    (hread : Settings.ofValue value = .value session.settings) {glyphs : List Glyph}
    (hregular : ∀ glyph ∈ glyphs, glyph.weight = .regular)
    (hgrids : ∀ glyph ∈ glyphs, glyph.grid.isRectangular = true) :
    let selected := Compilation.selected session.settings glyphs .regular
    selected.Sublist glyphs ∧
      Compilation.selected session.settings glyphs .bold = selected.map Glyph.deriveBold ∧
      ∃ regular bold, (session.compile glyphs .regular).result = .ok regular ∧
        (session.compile glyphs .bold).result = .ok bold ∧
        regular.outlines.length = bold.outlines.length ∧
        List.Forall₂ (fun glyph outlines ↦
          Outline.Follows session.settings glyph outlines.1 outlines.2)
          selected (regular.outlines.zip bold.outlines) ∧
        bold.substitutions = regular.substitutions := by
  intro selected
  have hpixel : 0 < session.settings.scale.pixelSize :=
    Int.natCast_pos.mpr (Settings.isAccepted_of_ofValue hread).pixelSize_pos
  have hselected : selected.Sublist glyphs :=
    List.filter_sublist.trans List.filter_sublist
  have hbolds := Compilation.selected_bold_of_regular hregular session.settings
  have hfirst : ∀ glyph ∈ selected, glyph.grid.isRectangular = true :=
    fun glyph hglyph ↦ hgrids glyph (hselected.subset hglyph)
  have hsecond : ∀ glyph ∈ Compilation.selected session.settings glyphs .bold,
      glyph.grid.isRectangular = true := by
    rw [hbolds]
    exact List.forall_mem_map.mpr fun glyph hglyph ↦
      Grid.isRectangular_widen (hfirst glyph hglyph)
  refine ⟨hselected, hbolds, _, _,
    congrArg (Except.mapError BuildFault.glyph) (Compilation.font_eq_ok hread hfirst),
    congrArg (Except.mapError BuildFault.glyph) (Compilation.font_eq_ok hread hsecond), ?_, ?_, ?_⟩
  · dsimp only
    rw [hbolds, List.length_map, List.length_map, List.length_map]
  · dsimp only
    rw [hbolds, List.map_map, List.zip_map', List.forall₂_map_right_iff, List.forall₂_same]
    exact fun glyph hglyph ↦ Compilation.follows_outlineOf hpixel (hfirst glyph hglyph)
  · dsimp only
    rw [Compilation.resolution, Compilation.resolution, hbolds]
    split
    · exact Resolution.substitutions_map_deriveBold _
    · rfl

/-- A letter and a ligature of two of it. The bold forms follow them, and both weights replace two
letters by the ligature. -/
theorem Session.compile_bold_of_regular_pair :
    let session : Session := { settings := Settings.oneCell, tree := FileTree.empty [] }
    let letter : Glyph := { label := "A", codepoint := some 65, grid := [[true, false, false]] }
    let pair : Glyph :=
      { label := "AA", codepoint := none, grid := [[false, true, false]],
        components := some ["A", "A"], kind := .ligature }
    Settings.ofValue Settings.oneCellRecord = .value session.settings ∧
      (∀ glyph ∈ [letter, pair], glyph.weight = .regular) ∧
      (∀ glyph ∈ [letter, pair], glyph.grid.isRectangular = true) ∧
      ∃ regular bold, (session.compile [letter, pair] .regular).result = .ok regular ∧
        (session.compile [letter, pair] .bold).result = .ok bold ∧
        List.Forall₂ (fun glyph outlines ↦
          Outline.Follows session.settings glyph outlines.1 outlines.2)
          [letter, pair] (regular.outlines.zip bold.outlines) ∧
        bold.substitutions = regular.substitutions := by
  intro session letter pair
  have hread : Settings.ofValue Settings.oneCellRecord = .value session.settings :=
    Settings.ofValue_oneCellRecord
  have hregular : ∀ glyph ∈ [letter, pair], glyph.weight = .regular := by decide
  have hgrids : ∀ glyph ∈ [letter, pair], glyph.grid.isRectangular = true := by decide
  have hselected : Compilation.selected session.settings [letter, pair] .regular =
      [letter, pair] := by decide
  obtain ⟨-, -, regular, bold, hfirst, hsecond, -, hfollows, hsame⟩ :=
    compile_bold_of_regular hread hregular hgrids
  rw [hselected] at hfollows
  exact ⟨hread, hregular, hgrids, regular, bold, hfirst, hsecond, hfollows, hsame⟩

end PixelFont
