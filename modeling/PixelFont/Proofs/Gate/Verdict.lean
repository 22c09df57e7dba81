import Mathlib.Data.List.Pairwise
import PixelFont.Glyph.Name
import PixelFont.Proofs.Gate.Drawing
import PixelFont.Proofs.Grouping
import PixelFont.Proofs.Settings.Acceptance

/-!
What a corpus must be for the gate to let it pass. `IsPublishable` states it without the checks:
every file was read, every glyph looked at is drawn as it should be, no two of them are in each
other's way, and every required character is drawn. Each check of the corpus as a whole is put
into this form by a statement of its own; main statement: `isValid_report_iff`.
-/

set_option autoImplicit false

namespace PixelFont

namespace Gate

/-- Two characters of one weight with the same codepoint. -/
def SharesCodepoint (first second : Glyph) : Prop :=
  (∃ codepoint, first.encoding? = some codepoint ∧ second.encoding? = some codepoint) ∧
    first.weight = second.weight

/-- Two ligatures of one weight with the same label. -/
def SharesLigatureLabel (first second : Glyph) : Prop :=
  (first.isLigature = true ∧ second.isLigature = true) ∧ first.label = second.label ∧
    first.weight = second.weight

/-- Two characters of one weight with the same label and different codepoints. -/
def SharesLabelApart (first second : Glyph) : Prop :=
  (∃ codepoint other, first.encoding? = some codepoint ∧ second.encoding? = some other ∧
      codepoint ≠ other) ∧
    first.label = second.label ∧ first.weight = second.weight

/-- A corpus from which fonts can be built: every file was read, the glyphs looked at are drawn as
they should be, no two of them are in each other's way, and the required characters are there. -/
structure IsPublishable (settings : Settings) (corpus : Corpus) : Prop where
  rejections : corpus.rejections = []
  drawn : ∀ glyph ∈ activeGlyphs settings corpus.glyphs, IsDrawn settings.raster glyph
  codepoints : (activeGlyphs settings corpus.glyphs).Pairwise
    fun first second ↦ ¬ SharesCodepoint first second
  ligatures : (activeGlyphs settings corpus.glyphs).Pairwise
    fun first second ↦ ¬ SharesLigatureLabel first second
  labels : (activeGlyphs settings corpus.glyphs).Pairwise
    fun first second ↦ ¬ SharesLabelApart first second
  required : ∀ codepoint : ℕ, settings.corpus.requiredStart ≤ codepoint →
    codepoint ≤ settings.corpus.requiredEnd →
      ∃ glyph ∈ activeGlyphs settings corpus.glyphs,
        glyph.encoding? = some (codepoint : Int) ∧ glyph.weight = .regular

theorem encoding?_eq_some_iff {glyph : Glyph} {codepoint : Int} :
    glyph.encoding? = some codepoint ↔
      glyph.isLigature = false ∧ glyph.codepoint = some codepoint := by
  rw [Glyph.encoding?]
  cases glyph.isLigature <;> simp

/-! ### Groups -/

section Groups

variable {α β κ : Type} [BEq κ] [LawfulBEq κ]

/-- Groups give no finding exactly if none does whose key occurs. -/
theorem filterMap_groups_eq_nil_iff {key : α → Option κ} {finding? : κ × List α → Option β}
    {items : List α} :
    (groups key items).filterMap finding? = [] ↔
      ∀ k, (∃ item ∈ items, key item = some k) →
        finding? (k, items.filter fun item ↦ key item == some k) = none := by
  rw [groups, List.filterMap_map, List.filterMap_eq_nil_iff]
  simp only [List.mem_eraseDups, List.mem_filterMap, Function.comp_apply]

/-- The same, where an empty group never gives a finding. -/
theorem filterMap_groups_eq_nil_iff_forall {key : α → Option κ}
    {finding? : κ × List α → Option β} (hempty : ∀ k, finding? (k, []) = none) {items : List α} :
    (groups key items).filterMap finding? = [] ↔
      ∀ k, finding? (k, items.filter fun item ↦ key item == some k) = none := by
  rw [filterMap_groups_eq_nil_iff]
  refine ⟨fun hgroups k ↦ ?_, fun hgroups k _ ↦ hgroups k⟩
  by_cases hoccurs : ∃ item ∈ items, key item = some k
  · exact hgroups k hoccurs
  · have hnone : items.filter (fun item ↦ key item == some k) = [] := by
      rw [List.filter_eq_nil_iff]
      intro item hitem hkey
      exact hoccurs ⟨item, hitem, beq_iff_eq.mp hkey⟩
    rw [hnone, hempty]

end Groups

/-! ### Checks of the corpus as a whole -/

variable {view : Viewpoint} {glyphs : List Glyph}

theorem codepointKey_eq_some_iff {glyph : Glyph} {codepoint : Int} {weight : Weight} :
    codepointKey glyph = some (codepoint, weight) ↔
      glyph.encoding? = some codepoint ∧ glyph.weight = weight := by
  rw [codepointKey, Glyph.encoding?]
  cases glyph.isLigature <;> cases glyph.codepoint <;> simp

theorem codepointFindings_eq_nil_iff :
    (groups codepointKey glyphs).filterMap (codepointFinding? view) = [] ↔
      glyphs.Pairwise fun first second ↦ ¬ SharesCodepoint first second := by
  have hfinding (group : (Int × Weight) × List Glyph) :
      codepointFinding? view group = none ↔ group.2.length < 2 := by
    rw [codepointFinding?]
    split <;> simp [*]
  have hshares (first second : Glyph) :
      (∃ k, codepointKey first = some k ∧ codepointKey second = some k) ↔
        SharesCodepoint first second := by
    simp only [Prod.exists, codepointKey_eq_some_iff, SharesCodepoint]
    constructor
    · rintro ⟨codepoint, weight, ⟨hfirst, rfl⟩, hsecond, hweight⟩
      exact ⟨⟨codepoint, hfirst, hsecond⟩, hweight.symm⟩
    · rintro ⟨⟨codepoint, hfirst, hsecond⟩, hweight⟩
      exact ⟨codepoint, first.weight, ⟨hfirst, rfl⟩, hsecond, hweight.symm⟩
  rw [filterMap_groups_eq_nil_iff_forall fun _ ↦ rfl]
  simp only [hfinding, Grouping.forall_length_filter_lt_two_iff, hshares]

/-- Two glyphs that do not have two different codepoints between them. -/
def AgreeOnCodepoint (first second : Glyph) : Prop :=
  ∀ codepoint ∈ first.codepoint, ∀ other ∈ second.codepoint, codepoint = other

instance : Std.Symm AgreeOnCodepoint where
  symm _ _ hagree other hother codepoint hcodepoint :=
    (hagree codepoint hcodepoint other hother).symm

theorem AgreeOnCodepoint.refl (glyph : Glyph) : AgreeOnCodepoint glyph glyph :=
  fun _ hcodepoint _ hother ↦ Option.mem_unique hcodepoint hother

/-- The codepoints of glyphs are fewer than two exactly if all glyphs agree on theirs. -/
theorem length_codepointsOf_lt_two_iff_forall :
    (codepointsOf glyphs).length < 2 ↔
      ∀ first ∈ glyphs, ∀ second ∈ glyphs, AgreeOnCodepoint first second := by
  rw [codepointsOf, List.length_mergeSort, Grouping.length_eraseDups_lt_two_iff]
  simp only [List.mem_filterMap, forall_exists_index, and_imp]
  constructor
  · intro hsame first hfirst second hsecond codepoint hcodepoint other hother
    exact hsame codepoint first hfirst hcodepoint other second hsecond hother
  · intro hsame codepoint first hfirst hcodepoint other second hsecond hother
    exact hsame first hfirst second hsecond codepoint hcodepoint other hother

/-- The same for any two glyphs in their order. -/
theorem length_codepointsOf_lt_two_iff :
    (codepointsOf glyphs).length < 2 ↔ glyphs.Pairwise AgreeOnCodepoint := by
  rw [length_codepointsOf_lt_two_iff_forall]
  refine ⟨List.pairwise_of_forall_mem_list, fun hpairwise first hfirst second hsecond ↦ ?_⟩
  exact hpairwise.forall_of_forall (fun glyph _ ↦ .refl glyph) hfirst hsecond

theorem length_codepointsOf_le (glyphs : List Glyph) :
    (codepointsOf glyphs).length ≤ glyphs.length := by
  rw [codepointsOf, List.length_mergeSort]
  exact Nat.le_trans (Grouping.length_eraseDups_le _) (List.length_filterMap_le _ _)

theorem labelFinding?_ligature_eq_none_iff {label : String} {weight : Weight} :
    labelFinding? view ((.ligature, label, weight), glyphs) = none ↔ glyphs.length < 2 := by
  simp only [labelFinding?]
  split <;> simp [*]

theorem labelFinding?_standalone_eq_none_iff {label : String} {weight : Weight} :
    labelFinding? view ((.standalone, label, weight), glyphs) = none ↔
      (codepointsOf glyphs).length < 2 := by
  simp only [labelFinding?]
  split
  · rename_i hfew
    simpa using Nat.lt_of_le_of_lt (length_codepointsOf_le glyphs) hfew
  · split <;> simp [*]

theorem labelKey_eq_some_iff {glyph : Glyph} {kind : GlyphKind} {label : String}
    {weight : Weight} :
    labelKey glyph = some (kind, label, weight) ↔
      glyph.kind = kind ∧ glyph.label = label ∧ glyph.weight = weight := by
  simp only [labelKey, Option.some.injEq, Prod.mk.injEq]

/-- No two ligatures of a label and a weight, for every label and weight. -/
theorem forall_ligature_groups_iff (view : Viewpoint) :
    (∀ label weight, labelFinding? view ((.ligature, label, weight),
        glyphs.filter fun glyph ↦ labelKey glyph == some (.ligature, label, weight)) = none) ↔
      glyphs.Pairwise fun first second ↦ ¬ SharesLigatureLabel first second := by
  simp only [labelFinding?_ligature_eq_none_iff, Grouping.length_lt_two_iff, List.pairwise_filter,
    beq_iff_eq, labelKey_eq_some_iff]
  simp only [List.pairwise_iff_getElem, SharesLigatureLabel, Glyph.isLigature_eq_true_iff]
  constructor
  · rintro hapart i j hi hj hij ⟨⟨hfirst, hsecond⟩, hlabel, hweight⟩
    exact hapart _ _ i j hi hj hij ⟨hfirst, rfl, rfl⟩ ⟨hsecond, hlabel.symm, hweight.symm⟩
  · rintro hapart label weight i j hi hj hij ⟨hfirst, rfl, rfl⟩ ⟨hsecond, hlabel, hweight⟩
    exact hapart i j hi hj hij ⟨⟨hfirst, hsecond⟩, hlabel.symm, hweight.symm⟩

/-- One codepoint for the characters of a label and a weight, for every label and weight. -/
theorem forall_standalone_groups_iff (view : Viewpoint) :
    (∀ label weight, labelFinding? view ((.standalone, label, weight),
        glyphs.filter fun glyph ↦ labelKey glyph == some (.standalone, label, weight)) = none) ↔
      glyphs.Pairwise fun first second ↦ ¬ SharesLabelApart first second := by
  simp only [labelFinding?_standalone_eq_none_iff, length_codepointsOf_lt_two_iff,
    List.pairwise_filter, beq_iff_eq, labelKey_eq_some_iff]
  simp only [List.pairwise_iff_getElem, SharesLabelApart, encoding?_eq_some_iff,
    Glyph.isLigature_eq_false_iff]
  constructor
  · rintro hsame i j hi hj hij ⟨⟨codepoint, other, ⟨hfirst, hcodepoint⟩, ⟨hsecond, hother⟩, hne⟩,
      hlabel, hweight⟩
    exact hne (hsame _ _ i j hi hj hij ⟨hfirst, rfl, rfl⟩ ⟨hsecond, hlabel.symm, hweight.symm⟩
      codepoint hcodepoint other hother)
  · rintro hapart label weight i j hi hj hij ⟨hfirst, rfl, rfl⟩ ⟨hsecond, hlabel, hweight⟩
      codepoint hcodepoint other hother
    by_contra hne
    exact hapart i j hi hj hij ⟨⟨codepoint, other, ⟨hfirst, hcodepoint⟩, ⟨hsecond, hother⟩, hne⟩,
      hlabel.symm, hweight.symm⟩

theorem labelFindings_eq_nil_iff :
    (groups labelKey glyphs).filterMap (labelFinding? view) = [] ↔
      (glyphs.Pairwise fun first second ↦ ¬ SharesLigatureLabel first second) ∧
        glyphs.Pairwise fun first second ↦ ¬ SharesLabelApart first second := by
  rw [filterMap_groups_eq_nil_iff_forall fun _ ↦ rfl, ← forall_ligature_groups_iff view,
    ← forall_standalone_groups_iff view]
  constructor
  · intro hgroups
    exact ⟨fun _ _ ↦ hgroups _, fun _ _ ↦ hgroups _⟩
  · rintro ⟨hligatures, hstandalone⟩ ⟨kind, label, weight⟩
    cases kind with
    | standalone => exact hstandalone label weight
    | ligature => exact hligatures label weight

theorem mem_drawnCodepoints_iff {codepoint : Int} :
    codepoint ∈ drawnCodepoints glyphs ↔
      ∃ glyph ∈ glyphs, glyph.encoding? = some codepoint ∧ glyph.weight = .regular := by
  simp only [drawnCodepoints, List.mem_filterMap, List.mem_filter, Bool.and_eq_true,
    Bool.not_eq_true', beq_iff_eq, encoding?_eq_some_iff]
  constructor
  · rintro ⟨glyph, ⟨hglyph, hkind, hweight⟩, hcodepoint⟩
    exact ⟨glyph, hglyph, ⟨hkind, hcodepoint⟩, hweight⟩
  · rintro ⟨glyph, hglyph, ⟨hkind, hcodepoint⟩, hweight⟩
    exact ⟨glyph, ⟨hglyph, hkind, hweight⟩, hcodepoint⟩

theorem missingCodepoints_eq_nil_iff {rules : CorpusRules} :
    missingCodepoints rules glyphs = [] ↔
      ∀ codepoint : ℕ, rules.requiredStart ≤ codepoint → codepoint ≤ rules.requiredEnd →
        ∃ glyph ∈ glyphs, glyph.encoding? = some (codepoint : Int) ∧ glyph.weight = .regular := by
  simp only [missingCodepoints, List.filter_eq_nil_iff, List.mem_range'_1, Bool.not_eq_true',
    List.contains_iff_mem, Bool.not_eq_false, mem_drawnCodepoints_iff]
  constructor
  · intro hdrawn codepoint hstart hend
    exact hdrawn codepoint ⟨hstart, by omega⟩
  · rintro hdrawn codepoint ⟨hstart, hend⟩
    exact hdrawn codepoint hstart (by omega)

/-! ### The report -/

/-- A report is valid if no finding that keeps a font from being built is made. -/
theorem isValid_report_iff_forall {settings : Settings} {corpus : Corpus} :
    (report settings view corpus).isValid = true ↔
      ∀ finding ∈ findings settings view corpus, finding.defect.severity ≠ .error := by
  simp only [Report.isValid, Report.errors, report, List.isEmpty_iff, List.filter_eq_nil_iff,
    List.forall_mem_map, Finding.issue, beq_iff_eq, ne_eq]

theorem rejectionFindings_eq_nil_iff {rejections : List Rejection} :
    rejectionFindings view rejections = [] ↔ rejections = [] := by
  rw [rejectionFindings, List.map_eq_nil_iff, ← List.length_eq_zero_iff, List.length_mergeSort,
    List.length_eq_zero_iff]

/-- A list of findings that are all errors holds none but errors exactly if it is empty. -/
theorem forall_ne_error_iff {findings : List Finding}
    (herrors : ∀ finding ∈ findings, finding.defect.severity = .error) :
    (∀ finding ∈ findings, finding.defect.severity ≠ .error) ↔ findings = [] := by
  rw [List.eq_nil_iff_forall_not_mem]
  exact forall₂_congr fun finding hfinding ↦ iff_of_false (fun h ↦ h (herrors finding hfinding))
    (fun h ↦ h)

variable {settings : Settings}

theorem mem_activeGlyphs_iff {glyph : Glyph} :
    glyph ∈ activeGlyphs settings glyphs ↔
      glyph ∈ glyphs ∧ (settings.corpus.ligatures = true ∨ glyph.isLigature = false) := by
  simp only [activeGlyphs, List.mem_filter, Bool.or_eq_true, Bool.not_eq_true']

/-- The glyphs themselves give no error exactly if nothing is wrong with those looked at; a
ligature that is passed over is only warned about. -/
theorem forall_glyphFindings_iff :
    (∀ finding ∈ glyphs.flatMap (glyphFindings settings view),
        finding.defect.severity ≠ .error) ↔
      ∀ glyph ∈ activeGlyphs settings glyphs, glyphDefects settings.raster glyph = [] := by
  have hglyph (glyph : Glyph) :
      (∀ finding ∈ glyphFindings settings view glyph, finding.defect.severity ≠ .error) ↔
        (settings.corpus.ligatures = true ∨ glyph.isLigature = false →
          glyphDefects settings.raster glyph = []) := by
    simp only [glyphFindings, List.forall_mem_map]
    split
    · rename_i hpassed
      simp only [Bool.and_eq_true, Bool.not_eq_true'] at hpassed
      simp [hpassed.1, hpassed.2, Defect.severity]
    · rename_i hlooked
      have hactive : settings.corpus.ligatures = true ∨ glyph.isLigature = false := by
        simpa [or_comm, imp_iff_not_or] using hlooked
      simp only [hactive, forall_const]
      rw [List.eq_nil_iff_forall_not_mem]
      exact forall₂_congr fun defect hdefect ↦
        iff_of_false (fun h ↦ h (severity_of_mem_glyphDefects defect hdefect)) (fun h ↦ h)
  simp only [List.forall_mem_flatMap, hglyph, mem_activeGlyphs_iff, and_imp]

/-- Unknown components are only warned about. -/
theorem severity_of_mem_componentFindings :
    ∀ finding ∈ glyphs.filterMap (componentFinding? view glyphs),
      finding.defect.severity = .warning := by
  refine List.forall_mem_filterMap.mpr fun glyph _ finding hfinding ↦ ?_
  unfold componentFinding? at hfinding
  obtain ⟨-, hfound⟩ := Option.ite_none_right_eq_some.mp hfinding
  rw [← Option.some.inj hfound]
  rfl

theorem severity_of_mem_codepointFindings :
    ∀ finding ∈ (groups codepointKey glyphs).filterMap (codepointFinding? view),
      finding.defect.severity = .error := by
  refine List.forall_mem_filterMap.mpr fun group _ finding hfinding ↦ ?_
  unfold codepointFinding? at hfinding
  obtain ⟨-, hfound⟩ := Option.ite_none_left_eq_some.mp hfinding
  rw [← Option.some.inj hfound]
  rfl

theorem severity_of_mem_labelFindings :
    ∀ finding ∈ (groups labelKey glyphs).filterMap (labelFinding? view),
      finding.defect.severity = .error := by
  refine List.forall_mem_filterMap.mpr fun group _ finding hfinding ↦ ?_
  obtain ⟨⟨kind, label, weight⟩, members⟩ := group
  obtain ⟨-, hmany⟩ := Option.ite_none_left_eq_some.mp hfinding
  cases kind with
  | ligature =>
    rw [← Option.some.inj hmany]
    rfl
  | standalone =>
    obtain ⟨-, hfound⟩ := Option.ite_none_left_eq_some.mp hmany
    rw [← Option.some.inj hfound]
    rfl

theorem severity_of_mem_rejectionFindings {rejections : List Rejection} :
    ∀ finding ∈ rejectionFindings view rejections, finding.defect.severity = .error := by
  simp [rejectionFindings, Defect.severity]

theorem severity_of_mem_missingFindings {source : String} {codepoints : List ℕ} :
    ∀ finding ∈ codepoints.map (fun codepoint ↦ Finding.mk source (.missingGlyph codepoint)),
      finding.defect.severity = .error := by
  simp [Defect.severity]

/-- Under settings whose raster has a cell, the report on a corpus has no error exactly if the
corpus is publishable. -/
theorem isValid_report_iff_isPublishable {corpus : Corpus} (haccepted : settings.IsAccepted) :
    (report settings view corpus).isValid = true ↔ IsPublishable settings corpus := by
  have hdrawn (glyph : Glyph) :
      glyphDefects settings.raster glyph = [] ↔ IsDrawn settings.raster glyph :=
    glyphDefects_eq_nil_iff haccepted.width_pos haccepted.height_pos
  have hcomponents : ∀ finding ∈ (activeGlyphs settings corpus.glyphs).filterMap
      (componentFinding? view (activeGlyphs settings corpus.glyphs)),
        finding.defect.severity ≠ .error := by
    intro finding hfinding
    rw [severity_of_mem_componentFindings finding hfinding]
    exact Severity.noConfusion
  simp only [isValid_report_iff_forall, findings, List.forall_mem_append, forall_glyphFindings_iff,
    forall_ne_error_iff severity_of_mem_rejectionFindings, rejectionFindings_eq_nil_iff,
    forall_ne_error_iff severity_of_mem_codepointFindings, codepointFindings_eq_nil_iff,
    forall_ne_error_iff severity_of_mem_labelFindings, labelFindings_eq_nil_iff,
    forall_ne_error_iff severity_of_mem_missingFindings, List.map_eq_nil_iff,
    missingCodepoints_eq_nil_iff, hdrawn]
  constructor
  · rintro ⟨⟨⟨⟨⟨hrejections, hglyphs⟩, hcodepoints⟩, hligatures, hlabels⟩, hrequired⟩, -⟩
    exact ⟨hrejections, hglyphs, hcodepoints, hligatures, hlabels, hrequired⟩
  · intro hpublishable
    exact ⟨⟨⟨⟨⟨hpublishable.rejections, hpublishable.drawn⟩, hpublishable.codepoints⟩,
      hpublishable.ligatures, hpublishable.labels⟩, hpublishable.required⟩, hcomponents⟩

/-- Under settings that were read, a corpus that passes the gate is publishable. -/
theorem isPublishable_of_isValid {value : Value} (hread : Settings.ofValue value = .value settings)
    {corpus : Corpus} (hvalid : (report settings view corpus).isValid = true) :
    IsPublishable settings corpus :=
  (isValid_report_iff_isPublishable (Settings.isAccepted_of_ofValue hread)).mp hvalid

/-- Under settings that were read, the gate reports no error on a corpus exactly if the corpus is
publishable. -/
theorem isValid_report_iff {value : Value} {settings : Settings}
    (hread : Settings.ofValue value = .value settings) (view : Viewpoint) (corpus : Corpus) :
    (report settings view corpus).isValid = true ↔ IsPublishable settings corpus :=
  isValid_report_iff_isPublishable (Settings.isAccepted_of_ofValue hread)

/-- The gate for rasters of one cell and one required character lets a character pass that is drawn
in both weights and doubled by a ligature. -/
theorem isValid_report_iff_oneCell :
    let value : Value := .record [
      ("grid", .record [("width", .int 1), ("height", .int 1), ("baseline_row", .int 1)]),
      ("corpus", .record [("required_start", .int 65), ("required_end", .int 65)])]
    let settings : Settings :=
      { raster := ⟨1, 1, 1⟩, corpus := { requiredStart := 65, requiredEnd := 65 } }
    let letter : Glyph :=
      { label := "A", codepoint := some 65, grid := [[true]], rasterLines := ["X"] }
    let pair : Glyph :=
      { label := "AA", codepoint := none, grid := [[true, true]], components := some ["A", "A"],
        kind := .ligature, rasterLines := ["XX"] }
    let corpus : Corpus := { glyphs := [letter, { letter with weight := .bold }, pair] }
    Settings.ofValue value = .value settings ∧
      (report settings ⟨[], Path.here⟩ corpus).isValid = true ∧ IsPublishable settings corpus := by
  intro value settings letter pair corpus
  have hread : Settings.ofValue value = .value settings := rfl
  have hvalid : (report settings ⟨[], Path.here⟩ corpus).isValid = true := by decide +kernel
  exact ⟨hread, hvalid, (isValid_report_iff hread ⟨[], Path.here⟩ corpus).mp hvalid⟩

end Gate

end PixelFont
