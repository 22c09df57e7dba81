import PixelFont.Proofs.Gate.Forms

/-!
The characters that fonts are reached by. A font takes a mixture of glyphs that are drawn and of
bold forms that are derived, and reaches none of its ligatures by a codepoint. Still no character is
lost and none is there twice: the codepoints of the regular font are those of the regular
characters, and the codepoints of the bold font are those of all characters. Main statement:
`codepoints_of_isValid_report`.
-/

set_option autoImplicit false

namespace PixelFont

/-- The codepoints that a font is reached by, outline by outline. -/
def CompiledFont.codepoints (compiled : CompiledFont) : List Int :=
  compiled.outlines.filterMap Outline.encoding

namespace Gate

/-- Codepoints that a font may be reached by: they are distinct, they are those of characters, and
the required ones are among them. -/
structure IsCoverage (rules : CorpusRules) (codepoints : List Int) : Prop where
  nodup : codepoints.Nodup
  scalar : ∀ codepoint ∈ codepoints, IsScalar codepoint
  required : ∀ codepoint : ℕ, rules.requiredStart ≤ codepoint → codepoint ≤ rules.requiredEnd →
    (codepoint : Int) ∈ codepoints

variable {settings : Settings} {corpus : Corpus} {weight : Weight} {codepoint : Int}

/-- The codepoints of the glyphs compiled are those of the characters of the corpus, or of the
regular ones. -/
theorem mem_encodings_selected_iff :
    codepoint ∈ (Compilation.selected settings corpus.glyphs weight).filterMap Glyph.encoding? ↔
      ∃ glyph ∈ corpus.glyphs, glyph.encoding? = some codepoint ∧
        (weight = .regular → glyph.weight = .regular) := by
  rw [List.mem_filterMap, selected_eq]
  constructor
  · rintro ⟨form, hform, hencoding⟩
    obtain ⟨glyph, hglyph, hform⟩ := List.mem_filterMap.mp hform
    rw [Weight.encoding?_of_form? hform] at hencoding
    refine ⟨glyph, (mem_activeGlyphs_iff.mp hglyph).1, hencoding, ?_⟩
    rintro rfl
    exact (Weight.form?_regular_eq_some_iff.mp hform).1
  · rintro ⟨glyph, hglyph, hencoding, hweight⟩
    -- Whatever draws the character is no ligature, so that it is looked at in any case.
    have hactive : ∀ other ∈ corpus.glyphs, other.identity = glyph.identity →
        other ∈ activeGlyphs settings corpus.glyphs := by
      intro other hother hsame
      rw [identity_of_encoding? hencoding, ← encoding?_eq_some_iff_identity] at hsame
      exact mem_activeGlyphs_iff.mpr ⟨hother, Or.inr (encoding?_eq_some_iff.mp hsame).1⟩
    obtain ⟨form, hform, hidentity⟩ :=
      Weight.exists_form_identity (hactive glyph hglyph rfl) hweight hactive
    rw [identity_of_encoding? hencoding, ← encoding?_eq_some_iff_identity] at hidentity
    exact ⟨form, hform, hidentity⟩

/-- The glyphs compiled of a publishable corpus cover what is required. -/
theorem IsPublishable.isCoverage (hpublishable : IsPublishable settings corpus)
    (hwidth : 0 < settings.raster.width) (weight : Weight) :
    IsCoverage settings.corpus
      ((Compilation.selected settings corpus.glyphs weight).filterMap Glyph.encoding?) where
  nodup := nodup_encodings (hpublishable.pairwise_identity_selected weight)
  scalar := List.forall_mem_filterMap.mpr fun form hform codepoint hencoding ↦
    (hpublishable.isDrawn_selected weight hwidth form hform).scalar codepoint
      (encoding?_eq_some_iff.mp hencoding).2
  required := by
    intro codepoint hstart hend
    obtain ⟨glyph, hglyph, hencoding, hregular⟩ := hpublishable.required codepoint hstart hend
    exact mem_encodings_selected_iff.mpr
      ⟨glyph, (mem_activeGlyphs_iff.mp hglyph).1, hencoding, fun _ ↦ hregular⟩

/-- Behind the gate, both fonts are reached by distinct codepoints of characters, the required ones
among them. The regular font is reached by those of the regular characters of the corpus, the bold
one by those of all, and so by every codepoint of the regular one. -/
theorem codepoints_of_isValid_report {value : Value} {session : Session}
    (hread : Settings.ofValue value = .value session.settings) {view : Viewpoint}
    {corpus : Corpus} (hvalid : (report session.settings view corpus).isValid = true) :
    ∃ regular bold, (session.compile corpus.glyphs .regular).result = .ok regular ∧
      (session.compile corpus.glyphs .bold).result = .ok bold ∧
      IsCoverage session.settings.corpus regular.codepoints ∧
      IsCoverage session.settings.corpus bold.codepoints ∧
      (∀ codepoint, codepoint ∈ regular.codepoints ↔ ∃ glyph ∈ corpus.glyphs,
        glyph.kind = .standalone ∧ glyph.codepoint = some codepoint ∧ glyph.weight = .regular) ∧
      (∀ codepoint, codepoint ∈ bold.codepoints ↔ ∃ glyph ∈ corpus.glyphs,
        glyph.kind = .standalone ∧ glyph.codepoint = some codepoint) ∧
      regular.codepoints ⊆ bold.codepoints := by
  have hpublishable := isPublishable_of_isValid hread hvalid
  have haccepted := Settings.isAccepted_of_ofValue hread
  have hcoverage (weight : Weight) := hpublishable.isCoverage haccepted.width_pos weight
  have hmem (weight : Weight) (codepoint : Int) :
      codepoint ∈ (Compilation.selected session.settings corpus.glyphs weight).filterMap
          Glyph.encoding? ↔
        ∃ glyph ∈ corpus.glyphs, glyph.encoding? = some codepoint ∧
          (weight = .regular → glyph.weight = .regular) := mem_encodings_selected_iff
  simp only [← Compilation.filterMap_encoding_outlineOf session.settings] at hcoverage hmem
  refine ⟨_, _, hpublishable.result_compile hread .regular,
    hpublishable.result_compile hread .bold, hcoverage .regular, hcoverage .bold,
    fun codepoint ↦ ?_, fun codepoint ↦ ?_, fun codepoint hcodepoint ↦ ?_⟩
  · refine (hmem .regular codepoint).trans ?_
    simp only [encoding?_eq_some_iff, Glyph.isLigature_eq_false_iff, forall_const, and_assoc]
  · refine (hmem .bold codepoint).trans ?_
    simp only [encoding?_eq_some_iff, Glyph.isLigature_eq_false_iff, reduceCtorEq, false_imp_iff,
      and_true]
  · obtain ⟨glyph, hglyph, hencoding, -⟩ := (hmem .regular codepoint).mp hcodepoint
    exact (hmem .bold codepoint).mpr ⟨glyph, hglyph, hencoding, by simp⟩

/-- Of a regular letter, a bold one and a ligature that shares the label of the bold one, both
fonts have the regular letter, and the bold font alone has the other. -/
theorem codepoints_of_isValid_report_letters :
    let session : Session := { settings := Settings.oneCell, tree := FileTree.empty [] }
    let first : Glyph :=
      { label := "A", codepoint := some 65, grid := [[true]], rasterLines := ["X"] }
    let second : Glyph :=
      { label := "B", codepoint := some 66, grid := [[true]], weight := .bold,
        rasterLines := ["X"] }
    let pair : Glyph :=
      { label := "B", codepoint := none, grid := [[true, true]], components := some ["A", "A"],
        kind := .ligature, rasterLines := ["XX"] }
    let corpus : Corpus := { glyphs := [second, pair, first] }
    Settings.ofValue Settings.oneCellRecord = .value session.settings ∧
      (report session.settings session.view corpus).isValid = true ∧
      ∃ regular bold, (session.compile corpus.glyphs .regular).result = .ok regular ∧
        (session.compile corpus.glyphs .bold).result = .ok bold ∧
        65 ∈ regular.codepoints ∧ 66 ∉ regular.codepoints ∧
        65 ∈ bold.codepoints ∧ 66 ∈ bold.codepoints := by
  intro session first second pair corpus
  have hread : Settings.ofValue Settings.oneCellRecord = .value session.settings :=
    Settings.ofValue_oneCellRecord
  have hvalid : (report session.settings session.view corpus).isValid = true := by decide +kernel
  obtain ⟨regular, bold, hregular, hbold, hcovered, -, hregularMem, hboldMem, hsubset⟩ :=
    codepoints_of_isValid_report hread hvalid
  have hfirst : 65 ∈ regular.codepoints := hcovered.required 65 (by decide) (by decide)
  have hsecond : 66 ∉ regular.codepoints := by
    rw [hregularMem]
    decide
  have hsecondBold : 66 ∈ bold.codepoints := (hboldMem 66).mpr ⟨second, by decide, rfl, rfl⟩
  exact ⟨hread, hvalid, regular, bold, hregular, hbold, hfirst, hsecond, hsubset hfirst,
    hsecondBold⟩

end Gate

end PixelFont
