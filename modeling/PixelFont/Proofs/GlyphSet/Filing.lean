import PixelFont.Proofs.GlyphSet.Labels
import PixelFont.Proofs.Number.Range
import PixelFont.Proofs.Settings.Acceptance

/-!
Glyph sets on disk. Braille patterns are drawn on the raster they need, and block elements on every
raster whose eighths floating point can hold (`BlockElement.exists_lowerRows`), not on every raster
that settings may have (`GlyphSet.glyphs_eq_error_tower`). The glyphs of either set are plain
patterns, so they come through an empty directory unchanged, and the gate finds nothing wrong with
them. Main statement: `GlyphSet.comesBack_of_glyphs`.
-/

set_option autoImplicit false

namespace PixelFont

open Number

/-! ### Drawing -/

namespace BlockElement

/-- An eighth of a height is finite if the height is within the range of floating point. -/
theorem exists_toFraction?_eighth {height power : ℕ} (hpower : power ≤ 1023)
    (hheight : height < 2 ^ (power + 3)) :
    ∃ part, (eighth height).toFraction? = some part ∧ part.denominator ≠ 0 ∧
      part.size < 2 ^ (power + 1) := by
  have hsmall : (⟨false, height, 8⟩ : Fraction).size < 2 ^ power := by
    have hcast : (height : ℚ) < 2 ^ (power + 3) := by exact_mod_cast hheight
    rw [pow_add] at hcast
    show (height : ℚ) / (8 : ℕ) < 2 ^ power
    rw [div_lt_iff₀ (by norm_num)]
    norm_num at hcast ⊢
    exact hcast
  exact Binary64.exists_toFraction?_ofFraction
    (show (⟨false, height, 8⟩ : Fraction).denominator ≠ 0 from Nat.succ_ne_zero 7) hpower hsmall

/-- Up to seven eighths of a height are counted if the height is well within the range of floating
point. -/
theorem exists_eighths {count height power : ℕ} (hcount : count ≤ 7) (hpower : power ≤ 1019)
    (hheight : height < 2 ^ (power + 3)) : ∃ rows, eighths count height = .ok rows := by
  obtain ⟨part, hpart, hnonzero, hbelow⟩ :=
    exists_toFraction?_eighth (Nat.le_trans hpower (by decide)) hheight
  obtain ⟨factor, shift, hfactor, hwhole⟩ := Binary64.toFraction?_ofInt
    (show (count : ℤ).natAbs < 2 ^ 53 from Nat.lt_of_le_of_lt hcount (by decide))
  have hsum : (factor.mul part).size < 2 ^ (power + 4) := by
    have hseven : (count : ℚ) ≤ 7 := by exact_mod_cast hcount
    have hpositive : (0 : ℚ) < 2 ^ (power + 1) := by positivity
    rw [Fraction.size_mul, hwhole.size, Int.natAbs_natCast]
    calc (count : ℚ) * part.size ≤ 7 * 2 ^ (power + 1) :=
          mul_le_mul hseven hbelow.le (by unfold Fraction.size; positivity) (by norm_num)
      _ < 2 ^ (power + 4) := by
          rw [pow_add _ power 4, pow_add _ power 1]
          linarith [show (0 : ℚ) < 2 ^ power by positivity]
  have hproduct : (factor.mul part).denominator ≠ 0 :=
    Nat.mul_ne_zero (by rw [hwhole.denominator]; positivity) hnonzero
  obtain ⟨total, htotal, -, -⟩ :=
    Binary64.exists_toFraction?_ofFraction hproduct (by omega) hsum
  refine ⟨roundHalfEven total.numerator total.denominator, ?_⟩
  have hmul : ((Binary64.ofInt count).mul (eighth height)).toFraction? = some total := by
    rw [Binary64.mul, Binary64.lift, hfactor, hpart]
    exact htotal
  rw [eighths, hmul, hpart]

/-- The eighths of a height are counted unless the height is near the range of floating point. -/
theorem exists_lowerRows {height : ℕ} (hheight : height < 2 ^ 1022) :
    ∃ rows, lowerRows height = .ok rows := by
  refine ⟨_, Traversal.mapM_eq_ok_filterMap fun count hcount ↦
    exists_eighths (Nat.lt_succ_iff.mp (List.mem_range'_1.mp hcount).2) (Nat.le_refl 1019) ?_⟩
  have hexponent : 1022 = 1019 + 3 := rfl
  rwa [← hexponent]

end BlockElement

namespace GlyphSet

/-- Braille patterns are drawn on the raster that they need, block elements on every raster whose
height is well within the range of floating point. -/
theorem exists_glyphs {raster : RasterSize} {set : GlyphSet}
    (hblocks : set = .blockElements → raster.height < 2 ^ 1022)
    (hbraille : set = .braille → (raster.width, raster.height) = Braille.rasterSize) :
    ∃ glyphs, set.glyphs raster = .ok glyphs := by
  cases set with
  | blockElements =>
    obtain ⟨rows, hrows⟩ := BlockElement.exists_lowerRows (hblocks rfl)
    simp only [glyphs, BlockElement.glyphs, hrows, Except.map]
    exact ⟨_, rfl⟩
  | braille => exact ⟨_, if_pos (hbraille rfl)⟩

/-- The glyphs of a set are plain patterns drawn on the raster. -/
theorem exists_arePlain {raster : RasterSize} {set : GlyphSet} {drawn : List Glyph}
    (hdrawn : set.glyphs raster = .ok drawn) :
    ∃ patterns, Pattern.ArePlain patterns ∧
      drawn = patterns.map (Pattern.glyph raster.width raster.height) := by
  cases set with
  | blockElements =>
    cases hrows : BlockElement.lowerRows raster.height with
    | error error => simp [glyphs, BlockElement.glyphs, hrows, Except.map] at hdrawn
    | ok rows =>
      simp only [glyphs, BlockElement.glyphs, hrows, Except.map, Except.ok.injEq] at hdrawn
      exact ⟨_, BlockElement.arePlain_patterns _ _ rows, hdrawn.symm⟩
  | braille =>
    rw [glyphs] at hdrawn
    split at hdrawn
    · rename_i hsize
      obtain ⟨hwidth, hheight⟩ := Prod.mk.inj hsize
      refine ⟨_, Braille.arePlain_patterns, ?_⟩
      rw [← Except.ok.inj hdrawn, Braille.glyphs, hwidth, hheight, List.map_map]
      rfl
    · exact absurd hdrawn nofun

/-- The sets of glyphs are drawn, braille patterns on the raster they need and block elements on all
but those of immense height, and whatever glyphs are drawn come through an empty directory
unchanged, in which they are written exactly if there is room for the paths of all of them. Of a
corpus of these glyphs, whatever files they come from, the gate finds nothing but which required
characters are not among them. -/
theorem comesBack_of_glyphs {raster : RasterSize} (hwidth : 0 < raster.width)
    (hheight : 0 < raster.height) (set : GlyphSet) :
    ((set = .blockElements → raster.height < 2 ^ 1022) →
      (set = .braille → (raster.width, raster.height) = Braille.rasterSize) →
        ∃ glyphs, set.glyphs raster = .ok glyphs) ∧
    ∀ glyphs, set.glyphs raster = .ok glyphs →
      (∀ (tree : FileTree) (directory : Path) (place : Place), tree.LeadsTo directory place →
        tree.children place = [] →
          ((Corpus.write tree directory glyphs).2 = none ↔
            ∀ glyph ∈ glyphs, Corpus.Fits directory glyph) ∧
          ((∀ glyph ∈ glyphs, Corpus.Fits directory glyph) →
            ∃ written, Corpus.ComesBack tree directory place glyphs written)) ∧
      ∀ (settings : Settings) (view : Gate.Viewpoint) (source : Glyph → Option Path),
        settings.raster = raster →
          Gate.findings settings view
              { glyphs := glyphs.map fun glyph ↦ { glyph with source := source glyph } } =
            (Gate.missingCodepoints settings.corpus
              (glyphs.map fun glyph ↦ { glyph with source := source glyph })).map
                fun codepoint ↦ ⟨settings.corpus.missingReference, .missingGlyph codepoint⟩ := by
  refine ⟨exists_glyphs, fun glyphs hglyphs ↦ ?_⟩
  obtain ⟨patterns, hplain, rfl⟩ := exists_arePlain hglyphs
  have hfiling := hplain.isFiling hwidth raster.height
  refine ⟨fun tree directory place hleads hempty ↦
    ⟨hfiling.snd_write_eq_none_iff hleads hempty, hfiling.exists_comesBack hleads hempty⟩,
    fun settings view source hraster ↦ ?_⟩
  exact ((hplain.isCharacterSet hwidth).map_source source).findings_eq hraster hwidth hheight view

/-- Block elements of a single cell come through the directory in use, where nothing is. -/
theorem comesBack_of_glyphs_oneCell :
    let raster : RasterSize := ⟨1, 1, 0⟩
    let tree : FileTree := .empty ["g"]
    0 < raster.width ∧ 0 < raster.height ∧
      ∃ glyphs written, GlyphSet.glyphs raster .blockElements = .ok glyphs ∧ glyphs.length = 14 ∧
        Corpus.ComesBack tree Path.here ["g"] glyphs written := by
  intro raster tree
  have hwidth : 0 < raster.width := by decide
  have hheight : 0 < raster.height := by decide
  have hglyphs : GlyphSet.glyphs raster .blockElements =
      .ok ((BlockElement.patterns 1 1 [0, 0, 0, 0, 1, 1, 1]).map (Pattern.glyph 1 1)) := by
    decide +kernel
  have hleads : tree.LeadsTo Path.here ["g"] := ⟨by decide, by decide⟩
  have hempty : tree.children ["g"] = [] := by decide
  obtain ⟨-, hback⟩ := comesBack_of_glyphs hwidth hheight .blockElements
  obtain ⟨written, hwritten⟩ := ((hback _ hglyphs).1 tree Path.here ["g"] hleads hempty).2
    (by decide +kernel)
  exact ⟨hwidth, hheight, _, written, hglyphs, rfl, hwritten⟩

/-- Settings are accepted on whose raster no block elements can be drawn. -/
theorem glyphs_eq_error_tower :
    let value : Value := .record [("grid", .record [("height", .int (100 ^ 155))])]
    let settings : Settings := { raster := ⟨8, 100 ^ 155, 13⟩ }
    Settings.ofValue value = .value settings ∧
      GlyphSet.glyphs settings.raster .blockElements = .error (.eighths .oversizedEighth) := by
  intro value settings
  exact ⟨rfl, by decide +kernel⟩

end GlyphSet

end PixelFont
