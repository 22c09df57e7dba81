import PixelFont.Proofs.Gate.Forms
import PixelFont.Proofs.Ligature.Resolution

/-!
What the gate promises of the ligatures behind it. The ligatures of a font that are resolved
replace distinct sequences of glyphs as far as they name distinct components. The gate does not
look at that: it compares the labels of ligatures. Two ligatures of different labels that name the
same components pass, and no font can be assembled of them.
-/

set_option autoImplicit false

namespace PixelFont

namespace Gate

open Resolution

variable {settings : Settings} {corpus : Corpus}

/-- In the font of a publishable corpus, glyphs with codepoints have distinct names. -/
theorem IsPublishable.nodup_names_encoded (hpublishable : IsPublishable settings corpus)
    (weight : Weight) :
    ((encoded (Compilation.selected settings corpus.glyphs weight)).map Glyph.name).Nodup := by
  have hglyphs := (hpublishable.nodup_identities_selected weight).of_map
  refine (hglyphs.filter _).map_on fun first hfirst second hsecond hname ↦ ?_
  obtain ⟨hsecond, hencoded⟩ := List.mem_filter.mp hsecond
  obtain ⟨codepoint, hencoding⟩ := Option.isSome_iff_exists.mp hencoded
  exact hpublishable.eq_of_name_eq weight hsecond (List.mem_of_mem_filter hfirst) hencoding hname

/-- Behind the gate, the sequences that the ligatures of a font replace are distinct exactly if the
components that they name are; and the ligature feature can be stored exactly if no two ligatures
of different names name the same components. -/
theorem nodup_components_of_isValid_report {value : Value} {settings : Settings}
    (hread : Settings.ofValue value = .value settings)
    (hligatures : settings.corpus.ligatures = true) {view : Viewpoint} {corpus : Corpus}
    (hvalid : (report settings view corpus).isValid = true) (weight : Weight) :
    ∃ compiled, Compilation.font settings corpus.glyphs weight = .ok compiled ∧
      ((compiled.substitutions.map Substitution.components).Nodup ↔
        ((resolved (weight.select corpus.glyphs)).map Glyph.componentLabels).Nodup) ∧
      (Font.ligaturesFit (GlyphName.notdef :: compiled.outlines.map Outline.name)
          compiled.substitutions = true ↔
        ∀ first ∈ resolved (weight.select corpus.glyphs),
          ∀ second ∈ resolved (weight.select corpus.glyphs),
            first.componentLabels = second.componentLabels → first.name = second.name) := by
  have hpublishable := isPublishable_of_isValid hread hvalid
  have hcompiled := Compilation.font_eq_ok hread (hpublishable.isRectangular_selected weight)
  have hselected := selected_eq_select hligatures corpus.glyphs weight
  have hnames := hpublishable.nodup_names_encoded weight
  rw [Compilation.resolution, if_pos hligatures, substitutions_ofGlyphs, hselected] at hcompiled
  rw [hselected] at hnames
  refine ⟨_, hcompiled, nodup_components_iff hnames, ?_⟩
  rw [Compilation.map_name_outlineOf, Font.ligaturesFit_iff]
  · simp only [List.forall_mem_map]
    refine forall₂_congr fun first hfirst ↦ forall₂_congr fun second hsecond ↦ ?_
    rw [components_substitution_eq_iff hnames (mem_resolved_iff.mp hfirst).2.2
      (mem_resolved_iff.mp hsecond).2.2]
    rfl
  · refine List.forall_mem_map.mpr fun ligature hligature ↦ ?_
    obtain ⟨hsome, hname, hcomponents⟩ := names_of_mem_resolved hligature
    exact ⟨hsome, List.mem_cons_of_mem _ hname,
      fun component hmem ↦ List.mem_cons_of_mem _ (hcomponents component hmem)⟩

/-- The bold font of a letter with a ligature of two and one of three of it, the second one drawn
in both weights, replaces distinct sequences. -/
theorem nodup_components_of_isValid_report_letter :
    let settings := Settings.oneCell
    let letter : Glyph :=
      { label := "A", codepoint := some 65, grid := [[true]], rasterLines := ["X"] }
    let pair : Glyph :=
      { label := "pair", codepoint := none, grid := [[true, true]], components := some ["A", "A"],
        kind := .ligature, rasterLines := ["XX"] }
    let triple : Glyph :=
      { label := "triple", codepoint := none, grid := [[true, true, true]],
        components := some ["A", "A", "A"], kind := .ligature, rasterLines := ["XXX"] }
    let corpus : Corpus := { glyphs := [letter, pair, triple, { triple with weight := .bold }] }
    Settings.ofValue Settings.oneCellRecord = .value settings ∧ settings.corpus.ligatures = true ∧
      (report settings ⟨[], Path.here⟩ corpus).isValid = true ∧
      ∃ compiled, Compilation.font settings corpus.glyphs .bold = .ok compiled ∧
        (compiled.substitutions.map Substitution.components).Nodup := by
  intro settings letter pair triple corpus
  have hread := Settings.ofValue_oneCellRecord
  have hligatures : settings.corpus.ligatures = true := rfl
  have hvalid : (report settings ⟨[], Path.here⟩ corpus).isValid = true := by decide +kernel
  have hlabels :
      ((resolved (Weight.bold.select corpus.glyphs)).map Glyph.componentLabels).Nodup := by
    decide
  obtain ⟨compiled, hcompiled, hcomponents, -⟩ :=
    nodup_components_of_isValid_report hread hligatures hvalid .bold
  exact ⟨hread, hligatures, hvalid, compiled, hcompiled, hcomponents.mpr hlabels⟩

/-- Two ligatures with different labels and the same components pass the gate. Both substitutions
replace the same sequence, and the font is refused. -/
theorem unstorable_of_isValid_report :
    let settings := Settings.oneCell
    let letter : Glyph :=
      { label := "A", codepoint := some 65, grid := [[true]], rasterLines := ["X"] }
    let pair : Glyph :=
      { label := "x", codepoint := none, grid := [[true, true]], components := some ["A", "A"],
        kind := .ligature, rasterLines := ["XX"] }
    let corpus : Corpus := { glyphs := [letter, pair, { pair with label := "y" }] }
    Settings.ofValue Settings.oneCellRecord = .value settings ∧ settings.corpus.ligatures = true ∧
      (report settings ⟨[], Path.here⟩ corpus).isValid = true ∧
      ∃ compiled, Compilation.font settings corpus.glyphs .regular = .ok compiled ∧
        compiled.substitutions.map Substitution.components =
          [["uni0041", "uni0041"], ["uni0041", "uni0041"]] ∧
        Font.assemble settings compiled = .error .unstorable := by
  intro settings letter pair corpus
  have hread := Settings.ofValue_oneCellRecord
  have hvalid : (report settings ⟨[], Path.here⟩ corpus).isValid = true := by decide +kernel
  have hcompiled : Compilation.font settings corpus.glyphs .regular = .ok ⟨.regular,
      (Compilation.selected settings corpus.glyphs .regular).map (Compilation.outlineOf settings),
      (Compilation.resolution settings corpus.glyphs .regular).substitutions⟩ :=
    Compilation.font_eq_ok hread (by decide)
  refine ⟨hread, rfl, hvalid, _, hcompiled, ?_, ?_⟩
  · decide +kernel
  · decide +kernel

end Gate

end PixelFont
