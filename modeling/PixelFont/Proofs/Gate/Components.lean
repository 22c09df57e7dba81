import PixelFont.Proofs.Gate.Soundness
import PixelFont.Proofs.Ligature.Resolution

/-!
What the gate says of components, and what a font makes of them. The gate warns of a component
that is the label of no character, whatever its weight. A font asks for more: exactly one of its
own characters must bear the label. Behind the gate, the labels that are known to the gate and not
found in the font of a weight are of three kinds (`IsUnclear`), and a ligature is left out exactly
if it is warned of or has such a component. Main statement:
`exists_unresolved_iff_of_isValid_report`.
-/

set_option autoImplicit false

namespace PixelFont

namespace Gate

open Resolution

/-- A character that bears a label. -/
def Bears (glyph : Glyph) (label : String) : Prop :=
  glyph.isLigature = false ∧ glyph.label = label

/-- A label that characters bear, but not exactly one of those that come into a weight. -/
inductive IsUnclear (corpus : List Glyph) : Weight → String → Prop
  /-- Only bold characters bear the label, which the regular font does not take. -/
  | boldOnly {label : String} {bold : Glyph} (hbold : bold ∈ corpus) (hbears : Bears bold label)
      (honly : ∀ glyph ∈ corpus, Bears glyph label → glyph.weight = .bold) :
      IsUnclear corpus .regular label
  /-- No bold character bears the label, and the regular one that does is drawn bold under
  another label. -/
  | redrawn {label : String} {regular : Glyph} (hregular : regular ∈ corpus)
      (hbears : Bears regular label)
      (honly : ∀ glyph ∈ corpus, Bears glyph label → glyph.weight = .regular)
      (hdrawn : regular.identity ∈ Glyph.boldIdentities corpus) :
      IsUnclear corpus .bold label
  /-- A bold character bears the label, and so does a regular one of another codepoint, of which
  a bold form is derived. -/
  | shared {label : String} {bold regular : Glyph} (hbold : bold ∈ corpus)
      (hbears : Bears bold label) (hweight : bold.weight = .bold) (hregular : regular ∈ corpus)
      (hother : Bears regular label) (hplain : regular.weight = .regular)
      (hderived : regular.identity ∉ Glyph.boldIdentities corpus) :
      IsUnclear corpus .bold label

/-! ### Warnings -/

section Warnings

variable {view : Viewpoint} {settings : Settings} {corpus : Corpus} {glyph : Glyph}

theorem mem_unknownComponents_iff {glyphs : List Glyph} {label : String} :
    label ∈ unknownComponents glyphs glyph ↔
      label ∈ glyph.componentLabels ∧ ∀ other ∈ glyphs, ¬ Bears other label := by
  simp [unknownComponents, Bears, List.mem_filter]

theorem exists_componentFinding?_iff {glyphs : List Glyph} (hkind : glyph.isLigature = true) :
    (∃ finding, componentFinding? view glyphs glyph = some finding) ↔
      ∃ label ∈ glyph.componentLabels, ∀ other ∈ glyphs, ¬ Bears other label := by
  have hunknown : unknownComponents glyphs glyph ≠ [] ↔
      ∃ label ∈ glyph.componentLabels, ∀ other ∈ glyphs, ¬ Bears other label := by
    simp only [ne_eq, List.eq_nil_iff_forall_not_mem, mem_unknownComponents_iff, not_forall,
      not_not]
  rw [← hunknown, ← List.isEmpty_eq_false_iff]
  simp [componentFinding?, hkind]

/-- A finding on the components of a glyph looked at is a warning of the report. -/
theorem issue_mem_warnings {finding : Finding}
    (hglyph : glyph ∈ activeGlyphs settings corpus.glyphs)
    (hfinding : componentFinding? view (activeGlyphs settings corpus.glyphs) glyph =
      some finding) :
    finding.issue ∈ (report settings view corpus).warnings := by
  have hmem : finding ∈ (activeGlyphs settings corpus.glyphs).filterMap
      (componentFinding? view (activeGlyphs settings corpus.glyphs)) :=
    List.mem_filterMap.mpr ⟨glyph, hglyph, hfinding⟩
  have hseverity : finding.issue.severity = .warning :=
    severity_of_mem_componentFindings finding hmem
  refine List.mem_filter.mpr ⟨List.mem_map_of_mem ?_, by rw [hseverity]; rfl⟩
  exact List.mem_append_right _ hmem

/-- A ligature is warned of exactly if a component is the label of no character. -/
theorem exists_warning_iff (hglyph : glyph ∈ activeGlyphs settings corpus.glyphs)
    (hkind : glyph.isLigature = true) :
    (∃ finding, componentFinding? view (activeGlyphs settings corpus.glyphs) glyph =
        some finding ∧ finding.issue ∈ (report settings view corpus).warnings) ↔
      ∃ label ∈ glyph.componentLabels,
        ∀ other ∈ activeGlyphs settings corpus.glyphs, ¬ Bears other label := by
  rw [← exists_componentFinding?_iff hkind]
  exact exists_congr fun finding ↦ and_iff_left_of_imp (issue_mem_warnings hglyph)

end Warnings

/-! ### Labels -/

section Labels

variable {settings : Settings} {corpus : Corpus} (hligatures : settings.corpus.ligatures = true)
  (hpublishable : IsPublishable settings corpus) {label : String}
include hpublishable

/-- Two characters of a publishable corpus differ in label or weight: of two that do not, the gate
refuses the codepoint where it is the same, and else the label. -/
theorem IsPublishable.nodup_label_weight :
    (((activeGlyphs settings corpus.glyphs).filter fun glyph ↦ !glyph.isLigature).map
      fun glyph ↦ (glyph.label, glyph.weight)).Nodup := by
  have hapart := hpublishable.codepoints.and hpublishable.labels
  refine List.pairwise_map.mpr ((hapart.filter _).imp_of_mem ?_)
  rintro first second hfirst hsecond ⟨hcodepoints, hlabels⟩ hsame
  rw [List.mem_filter, Bool.not_eq_true'] at hfirst hsecond
  obtain ⟨hlabel, hweight⟩ := Prod.mk.inj hsame
  obtain ⟨codepoint, hcodepoint, -⟩ := (hpublishable.drawn first hfirst.1).encoding? hfirst.2
  obtain ⟨other, hother, -⟩ := (hpublishable.drawn second hsecond.1).encoding? hsecond.2
  by_cases hequal : codepoint = other
  · exact hcodepoints ⟨⟨codepoint, hcodepoint, hequal ▸ hother⟩, hweight⟩
  · exact hlabels ⟨⟨codepoint, other, hcodepoint, hother, hequal⟩, hlabel, hweight⟩

include hligatures

/-- A label is borne in the font of a weight by the forms of its bearers. -/
theorem IsPublishable.mem_bearers_iff {weight : Weight} {form : Glyph} :
    form ∈ bearers (weight.select corpus.glyphs) label ↔
      ∃ glyph ∈ corpus.glyphs, Bears glyph label ∧
        weight.form? corpus.glyphs glyph = some form := by
  rw [Resolution.mem_bearers_iff, Weight.select_eq_filterMap, List.mem_filterMap]
  constructor
  · rintro ⟨⟨glyph, hglyph, hform⟩, ⟨codepoint, hencoding⟩, hlabel⟩
    rw [Weight.encoding?_of_form? hform] at hencoding
    rw [Weight.label_of_form? hform] at hlabel
    exact ⟨glyph, hglyph, ⟨(encoding?_eq_some_iff.mp hencoding).1, hlabel⟩, hform⟩
  · rintro ⟨glyph, hglyph, ⟨hkind, hlabel⟩, hform⟩
    have hactive : glyph ∈ activeGlyphs settings corpus.glyphs := by
      rwa [activeGlyphs_eq hligatures]
    obtain ⟨codepoint, hencoding, -⟩ := (hpublishable.drawn glyph hactive).encoding? hkind
    exact ⟨⟨glyph, hglyph, hform⟩, ⟨codepoint, (Weight.encoding?_of_form? hform).trans hencoding⟩,
      (Weight.label_of_form? hform).trans hlabel⟩

/-- At most one character of a weight bears a label. -/
theorem IsPublishable.eq_of_bears {first second : Glyph} (hfirst : first ∈ corpus.glyphs)
    (hsecond : second ∈ corpus.glyphs) (hbears : Bears first label) (hother : Bears second label)
    (hweight : first.weight = second.weight) : first = second := by
  have hdistinct := hpublishable.nodup_label_weight
  rw [activeGlyphs_eq hligatures] at hdistinct
  have hmem {glyph : Glyph} (hglyph : glyph ∈ corpus.glyphs) (hbears : Bears glyph label) :
      glyph ∈ corpus.glyphs.filter fun glyph ↦ !glyph.isLigature :=
    List.mem_filter.mpr ⟨hglyph, by rw [hbears.1]; rfl⟩
  refine List.inj_on_of_nodup_map hdistinct (hmem hfirst hbears) (hmem hsecond hother) ?_
  rw [hbears.2, hother.2, hweight]

theorem IsPublishable.nodup_select (weight : Weight) : (weight.select corpus.glyphs).Nodup := by
  rw [← selected_eq_select hligatures]
  exact (hpublishable.pairwise_identity_selected weight).imp fun hidentity hsame ↦
    hidentity (congrArg Glyph.identity hsame)

/-- A label whose bearers have no form in a weight is not found there. -/
theorem IsPublishable.target?_eq_none {weight : Weight}
    (hnone : ∀ glyph ∈ corpus.glyphs, Bears glyph label →
      ∀ form, weight.form? corpus.glyphs glyph ≠ some form) :
    target? (weight.select corpus.glyphs) label = none := by
  refine target?_eq_none_of_bearers (List.eq_nil_iff_forall_not_mem.mpr fun form hform ↦ ?_)
  obtain ⟨glyph, hglyph, hbears, hform⟩ := (hpublishable.mem_bearers_iff hligatures).mp hform
  exact hnone glyph hglyph hbears form hform

/-- A label of which a bearer has a form is not found exactly if the bearer of the other weight has
a form as well. -/
theorem IsPublishable.target?_eq_none_iff_of_form? {weight : Weight} {glyph form : Glyph}
    (hglyph : glyph ∈ corpus.glyphs) (hbears : Bears glyph label)
    (hform : weight.form? corpus.glyphs glyph = some form) :
    target? (weight.select corpus.glyphs) label = none ↔
      ∃ other ∈ corpus.glyphs, Bears other label ∧ other.weight ≠ glyph.weight ∧
        ∃ otherForm, weight.form? corpus.glyphs other = some otherForm := by
  have htarget : form ∈ bearers (weight.select corpus.glyphs) label :=
    (hpublishable.mem_bearers_iff hligatures).mpr ⟨glyph, hglyph, hbears, hform⟩
  rw [target?_eq_none_iff_of_mem (hpublishable.nodup_select hligatures weight) htarget]
  constructor
  · rintro ⟨otherForm, hotherForm, hne⟩
    obtain ⟨other, hother, hotherBears, hotherForm⟩ :=
      (hpublishable.mem_bearers_iff hligatures).mp hotherForm
    refine ⟨other, hother, hotherBears, fun hweight ↦ hne ?_, otherForm, hotherForm⟩
    obtain rfl := hpublishable.eq_of_bears hligatures hother hglyph hotherBears hbears hweight
    exact Option.some.inj (hotherForm.symm.trans hform)
  · rintro ⟨other, hother, hotherBears, hweight, otherForm, hotherForm⟩
    refine ⟨otherForm, (hpublishable.mem_bearers_iff hligatures).mpr
      ⟨other, hother, hotherBears, hotherForm⟩, ?_⟩
    rintro rfl
    exact hweight (Weight.weight_eq_of_form? hother hglyph hotherForm hform)

/-- A label is not found in the regular font exactly if no regular character bears it. -/
theorem IsPublishable.target?_regular_eq_none_iff :
    target? (Weight.regular.select corpus.glyphs) label = none ↔
      (∀ glyph ∈ corpus.glyphs, ¬ Bears glyph label) ∨
        IsUnclear corpus.glyphs .regular label := by
  by_cases hregular : ∃ glyph ∈ corpus.glyphs, Bears glyph label ∧ glyph.weight = .regular
  · obtain ⟨glyph, hglyph, hbears, hweight⟩ := hregular
    rw [hpublishable.target?_eq_none_iff_of_form? hligatures hglyph hbears
      (Weight.form?_regular_eq_some_iff.mpr ⟨hweight, rfl⟩), hweight]
    refine iff_of_false ?_ ?_
    · rintro ⟨other, -, -, hother, form, hform⟩
      exact hother (Weight.form?_regular_eq_some_iff.mp hform).1
    · rintro (hnone | ⟨-, -, honly⟩)
      · exact hnone glyph hglyph hbears
      · exact absurd (hweight.symm.trans (honly glyph hglyph hbears)) (by simp)
  · have hbold : ∀ glyph ∈ corpus.glyphs, Bears glyph label → glyph.weight = .bold := by
      intro glyph hglyph hbears
      cases hweight : glyph.weight with
      | regular => exact absurd ⟨glyph, hglyph, hbears, hweight⟩ hregular
      | bold => rfl
    refine iff_of_true (hpublishable.target?_eq_none hligatures ?_) ?_
    · intro glyph hglyph hbears form hform
      exact hregular ⟨glyph, hglyph, hbears, (Weight.form?_regular_eq_some_iff.mp hform).1⟩
    · by_cases hborne : ∃ glyph ∈ corpus.glyphs, Bears glyph label
      · obtain ⟨glyph, hglyph, hbears⟩ := hborne
        exact Or.inr (.boldOnly hglyph hbears hbold)
      · exact Or.inl fun glyph hglyph hbears ↦ hborne ⟨glyph, hglyph, hbears⟩

/-- A bold bearer of a label is in the bold font, where the label is not found exactly if a regular
bearer comes into it as well. -/
theorem IsPublishable.target?_bold_eq_none_iff_of_bold {bold : Glyph} (hbold : bold ∈ corpus.glyphs)
    (hbears : Bears bold label) (hweight : bold.weight = .bold) :
    target? (Weight.bold.select corpus.glyphs) label = none ↔
      IsUnclear corpus.glyphs .bold label := by
  rw [hpublishable.target?_eq_none_iff_of_form? hligatures hbold hbears
    (Weight.form?_bold_eq_some_iff.mpr (Or.inl ⟨hweight, rfl⟩)), hweight]
  constructor
  · rintro ⟨other, hother, hotherBears, hotherWeight, form, hform⟩
    rcases Weight.form?_bold_eq_some_iff.mp hform with ⟨hotherBold, -⟩ | ⟨hplain, hderived, -⟩
    · exact absurd hotherBold hotherWeight
    · exact .shared hbold hbears hweight hother hotherBears hplain hderived
  · intro hunclear
    cases hunclear with
    | redrawn _ _ honly _ =>
      exact absurd (hweight.symm.trans (honly bold hbold hbears)) (by simp)
    | @shared _ _ regular _ _ _ hregular hother hplain hderived =>
      exact ⟨regular, hregular, hother, by simp [hplain], regular.deriveBold,
        Weight.form?_bold_eq_some_iff.mpr (Or.inr ⟨hplain, hderived, rfl⟩)⟩

/-- A label that no bold character bears is not found in the bold font exactly if no character bears
it at all or the regular one that does is drawn bold under another label. -/
theorem IsPublishable.target?_bold_eq_none_iff_of_regular
    (hplain : ∀ glyph ∈ corpus.glyphs, Bears glyph label → glyph.weight = .regular) :
    target? (Weight.bold.select corpus.glyphs) label = none ↔
      (∀ glyph ∈ corpus.glyphs, ¬ Bears glyph label) ∨
        IsUnclear corpus.glyphs .bold label := by
  by_cases hderived : ∃ glyph ∈ corpus.glyphs, Bears glyph label ∧
      glyph.identity ∉ Glyph.boldIdentities corpus.glyphs
  · obtain ⟨glyph, hglyph, hbears, hidentity⟩ := hderived
    have hweight := hplain glyph hglyph hbears
    rw [hpublishable.target?_eq_none_iff_of_form? hligatures hglyph hbears
      (Weight.form?_bold_eq_some_iff.mpr (Or.inr ⟨hweight, hidentity, rfl⟩))]
    refine iff_of_false ?_ ?_
    · rintro ⟨other, hother, hotherBears, hne, -⟩
      exact hne ((hplain other hother hotherBears).trans hweight.symm)
    · rintro (hnone | hunclear)
      · exact hnone glyph hglyph hbears
      · cases hunclear with
        | redrawn hregular hother honly hdrawn =>
          obtain rfl := hpublishable.eq_of_bears hligatures hregular hglyph hother hbears
            ((honly _ hregular hother).trans hweight.symm)
          exact hidentity hdrawn
        | shared hbold hother hotherWeight =>
          exact absurd (hotherWeight.symm.trans (hplain _ hbold hother)) (by simp)
  · refine iff_of_true (hpublishable.target?_eq_none hligatures ?_) ?_
    · intro glyph hglyph hbears form hform
      rcases Weight.form?_bold_eq_some_iff.mp hform with ⟨hbold, -⟩ | ⟨-, hidentity, -⟩
      · exact absurd (hbold.symm.trans (hplain glyph hglyph hbears)) (by simp)
      · exact hderived ⟨glyph, hglyph, hbears, hidentity⟩
    · by_cases hborne : ∃ glyph ∈ corpus.glyphs, Bears glyph label
      · obtain ⟨glyph, hglyph, hbears⟩ := hborne
        refine Or.inr (.redrawn hglyph hbears hplain ?_)
        by_contra hidentity
        exact hderived ⟨glyph, hglyph, hbears, hidentity⟩
      · exact Or.inl fun glyph hglyph hbears ↦ hborne ⟨glyph, hglyph, hbears⟩

/-- A label is not found in the font of a weight exactly if it is the label of no character or it
is unclear. -/
theorem IsPublishable.target?_eq_none_iff (weight : Weight) :
    target? (weight.select corpus.glyphs) label = none ↔
      (∀ glyph ∈ corpus.glyphs, ¬ Bears glyph label) ∨ IsUnclear corpus.glyphs weight label := by
  cases weight with
  | regular => exact hpublishable.target?_regular_eq_none_iff hligatures
  | bold =>
    by_cases hbold : ∃ glyph ∈ corpus.glyphs, Bears glyph label ∧ glyph.weight = .bold
    · obtain ⟨bold, hmem, hbears, hweight⟩ := hbold
      rw [hpublishable.target?_bold_eq_none_iff_of_bold hligatures hmem hbears hweight]
      exact (or_iff_right fun hnone ↦ hnone bold hmem hbears).symm
    · refine hpublishable.target?_bold_eq_none_iff_of_regular hligatures ?_
      intro glyph hglyph hbears
      cases hweight : glyph.weight with
      | regular => rfl
      | bold => exact absurd ⟨glyph, hglyph, hbears, hweight⟩ hbold

end Labels

/-! ### Ligatures -/

/-- Behind the gate, a ligature is left out of the substitutions of a weight, as it is or in the
bold form derived from it, exactly if the gate warned of its components or one of them is unclear
in that weight. -/
theorem exists_unresolved_iff_of_isValid_report {value : Value} {settings : Settings}
    (hread : Settings.ofValue value = .value settings)
    (hligatures : settings.corpus.ligatures = true) {view : Viewpoint} {corpus : Corpus}
    (hvalid : (report settings view corpus).isValid = true) {weight : Weight} {glyph form : Glyph}
    (hglyph : glyph ∈ corpus.glyphs) (hform : weight.form? corpus.glyphs glyph = some form)
    (hkind : form.isLigature = true) :
    form ∈ weight.select corpus.glyphs ∧
      ((∃ labels, (form, labels) ∈
          (Compilation.resolution settings corpus.glyphs weight).unresolved) ↔
        (∃ finding, componentFinding? view (activeGlyphs settings corpus.glyphs) glyph =
            some finding ∧ finding.issue ∈ (report settings view corpus).warnings) ∨
          ∃ label ∈ glyph.componentLabels, IsUnclear corpus.glyphs weight label) := by
  have hpublishable := isPublishable_of_isValid hread hvalid
  have hselect : form ∈ weight.select corpus.glyphs := by
    rw [Weight.select_eq_filterMap]
    exact List.mem_filterMap.mpr ⟨glyph, hglyph, hform⟩
  refine ⟨hselect, ?_⟩
  have hactive := activeGlyphs_eq hligatures corpus.glyphs
  have hmem : glyph ∈ activeGlyphs settings corpus.glyphs := by rwa [hactive]
  have hligature : glyph.isLigature = true := by rwa [← Weight.isLigature_of_form? hform]
  have hlabels := Weight.componentLabels_of_form? hform
  have hsome : form.componentLabels ≠ [] := by
    rw [hlabels]
    exact (hpublishable.drawn glyph hmem).composed hligature
  rw [exists_warning_iff hmem hligature, hactive, Compilation.resolution, if_pos hligatures,
    selected_eq_select hligatures, exists_unresolved_iff hselect hkind hsome, hlabels]
  simp only [hpublishable.target?_eq_none_iff hligatures, and_or_left, exists_or]

/-- A ligature of a letter is left out of the bold font where a bold character of another codepoint
bears the label of the letter. -/
theorem exists_unresolved_iff_of_isValid_report_shared :
    let settings := Settings.oneCell
    let letter : Glyph :=
      { label := "A", codepoint := some 65, grid := [[true]], rasterLines := ["X"] }
    let bold : Glyph := { letter with codepoint := some 66, weight := .bold }
    let pair : Glyph :=
      { label := "AA", codepoint := none, grid := [[true, true]], components := some ["A", "A"],
        kind := .ligature, rasterLines := ["XX"] }
    let corpus : Corpus := { glyphs := [letter, bold, pair] }
    Settings.ofValue Settings.oneCellRecord = .value settings ∧ settings.corpus.ligatures = true ∧
      (report settings ⟨[], Path.here⟩ corpus).isValid = true ∧ pair ∈ corpus.glyphs ∧
      Weight.bold.form? corpus.glyphs pair = some pair.deriveBold ∧
      pair.deriveBold.isLigature = true ∧
      ∃ labels, (pair.deriveBold, labels) ∈
        (Compilation.resolution settings corpus.glyphs .bold).unresolved := by
  intro settings letter bold pair corpus
  have hread := Settings.ofValue_oneCellRecord
  have hvalid : (report settings ⟨[], Path.here⟩ corpus).isValid = true := by decide +kernel
  have hmem : letter ∈ corpus.glyphs ∧ bold ∈ corpus.glyphs ∧ pair ∈ corpus.glyphs := by decide
  have hform : Weight.bold.form? corpus.glyphs pair = some pair.deriveBold := by decide
  have hunclear : IsUnclear corpus.glyphs .bold "A" :=
    .shared hmem.2.1 ⟨rfl, rfl⟩ rfl hmem.1 ⟨rfl, rfl⟩ rfl (by decide)
  obtain ⟨-, hunresolved⟩ :=
    exists_unresolved_iff_of_isValid_report hread rfl hvalid hmem.2.2 hform rfl
  exact ⟨hread, rfl, hvalid, hmem.2.2, hform, rfl,
    hunresolved.mpr (Or.inr ⟨"A", List.mem_cons_self, hunclear⟩)⟩

/-- A ligature of a letter is left out of the bold font, and the gate warns of nothing, where the
letter is drawn bold under another label. -/
theorem unresolved_of_redrawn :
    let settings := Settings.oneCell
    let letter : Glyph :=
      { label := "A", codepoint := some 65, grid := [[true]], rasterLines := ["X"] }
    let pair : Glyph :=
      { label := "AA", codepoint := none, grid := [[true, true]], components := some ["A", "A"],
        kind := .ligature, rasterLines := ["XX"] }
    let corpus : Corpus :=
      { glyphs := [letter, { letter with label := "Abold", weight := .bold }, pair] }
    Settings.ofValue Settings.oneCellRecord = .value settings ∧ settings.corpus.ligatures = true ∧
      (report settings ⟨[], Path.here⟩ corpus).isValid = true ∧
      (report settings ⟨[], Path.here⟩ corpus).warnings = [] ∧
      (Compilation.resolution settings corpus.glyphs .bold).unresolved =
        [(pair.deriveBold, ["A", "A"])] := by
  intro settings letter pair corpus
  exact ⟨rfl, rfl, by decide +kernel, by decide +kernel, by decide⟩

end Gate

end PixelFont
