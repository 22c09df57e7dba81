import Mathlib.Data.List.Nodup
import PixelFont.GlyphSet
import PixelFont.Proofs.Gate.Forms

/-!
Sets of characters, such as those that patterns draw. Of characters that are drawn as they should be
and of which no two share a codepoint or a label, the gate finds nothing to say but which required
characters are not among them. Main statement: `Gate.IsCharacterSet.findings_eq`.
-/

set_option autoImplicit false

namespace PixelFont

namespace Gate

/-- Characters drawn for a raster, of which no two share a codepoint or a label. -/
structure IsCharacterSet (raster : RasterSize) (glyphs : List Glyph) : Prop where
  standalone : ∀ glyph ∈ glyphs, glyph.isLigature = false
  drawn : ∀ glyph ∈ glyphs, IsDrawn raster glyph
  nodup_codepoints : (glyphs.map Glyph.codepoint).Nodup
  nodup_labels : (glyphs.map Glyph.label).Nodup

/-! ### Patterns -/

/-- A pattern whose codepoint is that of a character is drawn as it should be on every raster of at
least one column. -/
theorem isDrawn_glyph {raster : RasterSize} {pattern : Pattern} (hwidth : 0 < raster.width)
    (hscalar : IsScalar pattern.codepoint) :
    IsDrawn raster (pattern.glyph raster.width raster.height) := by
  have hrows : ∀ row ∈ Grid.ofFunction raster.width raster.height pattern.isFilled,
      row.length = raster.width :=
    fun _ ↦ Grid.length_of_mem_ofFunction
  exact {
    height := Grid.length_ofFunction raster.width raster.height pattern.isFilled
    width := hrows
    lines := List.forall_mem_map.mpr fun row hrow ↦
      isRasterLine_iff.mp (isRasterLine_rowText (hrows row hrow ▸ hwidth))
    encoded := fun _ ↦ Option.some_ne_none _
    composed := fun hligature ↦ absurd hligature Bool.false_ne_true
    scalar := by simpa [Pattern.glyph, Glyph.withGrid] using hscalar }

/-- Patterns of distinct characters and labels draw a set of characters. -/
theorem isCharacterSet_map_glyph {raster : RasterSize} {patterns : List Pattern}
    (hwidth : 0 < raster.width) (hscalar : ∀ pattern ∈ patterns, IsScalar pattern.codepoint)
    (hcodepoints : (patterns.map Pattern.codepoint).Nodup)
    (hlabels : (patterns.map Pattern.label).Nodup) :
    IsCharacterSet raster (patterns.map (Pattern.glyph raster.width raster.height)) where
  standalone := List.forall_mem_map.mpr fun _ _ ↦ rfl
  drawn := List.forall_mem_map.mpr fun pattern hpattern ↦
    isDrawn_glyph hwidth (hscalar pattern hpattern)
  nodup_codepoints := by
    have hsome := hcodepoints.map (f := some) fun _ _ ↦ Option.some.inj
    rwa [List.map_map] at hsome ⊢
  nodup_labels := by rwa [List.map_map]

/-! ### Findings -/

namespace IsCharacterSet

variable {raster : RasterSize} {glyphs : List Glyph} (hset : IsCharacterSet raster glyphs)
include hset

/-- The files that characters come from do not matter to their being a set. -/
theorem map_source (source : Glyph → Option Path) :
    IsCharacterSet raster (glyphs.map fun glyph ↦ { glyph with source := source glyph }) where
  standalone := List.forall_mem_map.mpr hset.standalone
  drawn := List.forall_mem_map.mpr fun glyph hglyph ↦ { hset.drawn glyph hglyph with }
  nodup_codepoints := by
    rw [List.map_map]
    exact hset.nodup_codepoints
  nodup_labels := by
    rw [List.map_map]
    exact hset.nodup_labels

theorem pairwise_not_sharesCodepoint :
    glyphs.Pairwise fun first second ↦ ¬ SharesCodepoint first second := by
  refine (List.pairwise_map.mp hset.nodup_codepoints).imp ?_
  rintro first second hne ⟨⟨codepoint, hfirst, hsecond⟩, -⟩
  exact hne ((encoding?_eq_some_iff.mp hfirst).2.trans (encoding?_eq_some_iff.mp hsecond).2.symm)

theorem pairwise_not_sharesLabel :
    (glyphs.Pairwise fun first second ↦ ¬ SharesLigatureLabel first second) ∧
      glyphs.Pairwise fun first second ↦ ¬ SharesLabelApart first second := by
  have hlabels := List.pairwise_map.mp hset.nodup_labels
  exact ⟨hlabels.imp fun hne hshares ↦ hne hshares.2.1,
    hlabels.imp fun hne hshares ↦ hne hshares.2.1⟩

/-- Of a set of characters, all that the gate finds is which required ones are missing. -/
theorem findings_eq {settings : Settings} (hraster : settings.raster = raster)
    (hwidth : 0 < raster.width) (hheight : 0 < raster.height) (view : Viewpoint) :
    findings settings view { glyphs } =
      (missingCodepoints settings.corpus glyphs).map fun codepoint ↦
        ⟨settings.corpus.missingReference, .missingGlyph codepoint⟩ := by
  subst hraster
  have hactive : activeGlyphs settings glyphs = glyphs :=
    List.filter_eq_self.mpr fun glyph hglyph ↦ by simp [hset.standalone glyph hglyph]
  have hglyphs : glyphs.flatMap (glyphFindings settings view) = [] := by
    refine List.flatMap_eq_nil_iff.mpr fun glyph hglyph ↦ ?_
    have hdefects := (glyphDefects_eq_nil_iff hwidth hheight).mpr (hset.drawn glyph hglyph)
    simp [glyphFindings, hset.standalone glyph hglyph, hdefects]
  have hcomponents : glyphs.filterMap (componentFinding? view glyphs) = [] := by
    refine List.filterMap_eq_nil_iff.mpr fun glyph hglyph ↦ ?_
    simp [componentFinding?, hset.standalone glyph hglyph]
  have hcodepoints : (groups codepointKey glyphs).filterMap (codepointFinding? view) = [] :=
    codepointFindings_eq_nil_iff.mpr hset.pairwise_not_sharesCodepoint
  have hlabels : (groups labelKey glyphs).filterMap (labelFinding? view) = [] :=
    labelFindings_eq_nil_iff.mpr hset.pairwise_not_sharesLabel
  have hrejections : rejectionFindings view [] = [] := rejectionFindings_eq_nil_iff.mpr rfl
  simp only [findings, hactive, hrejections, hglyphs, hcodepoints, hlabels, hcomponents,
    List.nil_append, List.append_nil]

end IsCharacterSet

end Gate

end PixelFont
