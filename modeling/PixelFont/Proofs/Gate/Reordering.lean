import Mathlib.Data.Multiset.AddSub
import Mathlib.Data.Multiset.MapFold
import PixelFont.Gate.Check
import PixelFont.Proofs.Grouping

/-!
What the gate says does not depend on the order of a corpus. Of the glyphs in another order the
findings on single glyphs are the same ones in another order, and so are those on rejected files.
The checks of the corpus as a whole look at which glyphs there are and not at their places, but a
finding on a group names its members in their order. `rel_filterMap_groups` treats the groups of
any key. So two findings are compared by their defects and by the glyphs they name. Main statement:
`report_reordered`.
-/

set_option autoImplicit false

namespace PixelFont

/-- Two sources are the same, or name the same glyphs in different orders. -/
def Gate.Viewpoint.NamesSame (view : Gate.Viewpoint) (source other : String) : Prop :=
  source = other ∨ ∃ glyphs others : List Glyph, glyphs.Perm others ∧
    source = view.references glyphs ∧ other = view.references others

/-- Two findings tell of one defect of the same glyphs, whatever the order in which they name
them. -/
structure Finding.Agrees (view : Gate.Viewpoint) (finding other : Finding) : Prop where
  defect : finding.defect = other.defect
  source : view.NamesSame finding.source other.source

/-- Two issues tell the same of the same glyphs, whatever the order in which they name them. -/
structure Issue.Agrees (view : Gate.Viewpoint) (issue other : Issue) : Prop where
  severity : issue.severity = other.severity
  message : issue.message = other.message
  source : view.NamesSame issue.source other.source

theorem Finding.Agrees.refl (view : Gate.Viewpoint) (finding : Finding) :
    finding.Agrees view finding :=
  ⟨rfl, Or.inl rfl⟩

theorem Finding.Agrees.issue {view : Gate.Viewpoint} {finding other : Finding}
    (hagrees : finding.Agrees view other) : finding.issue.Agrees view other.issue where
  severity := congrArg Defect.severity hagrees.defect
  message := congrArg Defect.message hagrees.defect
  source := hagrees.source

namespace Gate

/-! ### Lists related in some order -/

section Related

variable {α β κ : Type} {related : β → β → Prop}

theorem rel_of_perm (hrefl : ∀ item, related item item) {items others : List β}
    (hperm : items.Perm others) : Multiset.Rel related items others := by
  rw [Multiset.coe_eq_coe.mpr hperm]
  exact Multiset.rel_refl_of_refl_on fun item _ ↦ hrefl item

/-- Of the same keys, two functions give related items if they do so key by key. -/
theorem rel_filterMap {give? tell? : κ → Option β} {keys : List κ}
    (hkeys : ∀ key ∈ keys, Option.Rel related (give? key) (tell? key)) :
    Multiset.Rel related (keys.filterMap give? : List β) (keys.filterMap tell? : List β) := by
  induction keys with
  | nil => exact Multiset.Rel.zero
  | cons key keys ih =>
    obtain ⟨hkey, hrest⟩ := List.forall_mem_cons.mp hkeys
    rw [List.filterMap_cons, List.filterMap_cons]
    generalize give? key = given at hkey ⊢
    generalize tell? key = told at hkey ⊢
    cases hkey with
    | none => exact ih hrest
    | some hgiven => exact Multiset.Rel.cons hgiven (ih hrest)

/-- Grouping items in another order gives the same findings, if those on a group do not depend on
the order of its members but for what is related. -/
theorem rel_filterMap_groups [BEq κ] [LawfulBEq κ] {key : α → Option κ}
    {finding? : κ × List α → Option β}
    (hfinding : ∀ k {members reordered : List α}, members.Perm reordered →
      Option.Rel related (finding? (k, members)) (finding? (k, reordered)))
    {items others : List α} (hitems : items.Perm others) :
    Multiset.Rel related ((groups key items).filterMap finding? : List β)
      ((groups key others).filterMap finding? : List β) := by
  let give? (list : List α) (k : κ) := finding? (k, list.filter fun item ↦ key item == some k)
  have hgive (list : List α) : (groups key list).filterMap finding? =
      (list.filterMap key).eraseDups.filterMap (give? list) := by
    rw [groups, List.filterMap_map]
    rfl
  have hkeys : (items.filterMap key).eraseDups.Perm (others.filterMap key).eraseDups :=
    Grouping.perm_eraseDups (hitems.filterMap key)
  rw [hgive, hgive, Multiset.coe_eq_coe.mpr (hkeys.filterMap (give? items))]
  exact rel_filterMap fun k _ ↦ hfinding k (hitems.filter _)

end Related

/-! ### Checks of the corpus as a whole -/

section Checks

variable {view : Viewpoint} {glyphs others : List Glyph} (hglyphs : glyphs.Perm others)
include hglyphs

theorem codepointsOf_congr : codepointsOf glyphs = codepointsOf others :=
  Grouping.mergeSort_congr (Grouping.perm_eraseDups (hglyphs.filterMap _))

theorem namesSame_references : view.NamesSame (view.references glyphs) (view.references others) :=
  Or.inr ⟨glyphs, others, hglyphs, rfl, rfl⟩

theorem rel_codepointFinding? (key : Int × Weight) :
    Option.Rel (Finding.Agrees view) (codepointFinding? view (key, glyphs))
      (codepointFinding? view (key, others)) := by
  rw [codepointFinding?, codepointFinding?, hglyphs.length_eq]
  split
  · exact Option.Rel.none
  · exact Option.Rel.some ⟨rfl, namesSame_references hglyphs⟩

theorem rel_labelFinding? (key : GlyphKind × String × Weight) :
    Option.Rel (Finding.Agrees view) (labelFinding? view (key, glyphs))
      (labelFinding? view (key, others)) := by
  obtain ⟨kind, label, weight⟩ := key
  simp only [labelFinding?, hglyphs.length_eq, codepointsOf_congr hglyphs]
  split
  · exact Option.Rel.none
  · cases kind with
    | ligature => exact Option.Rel.some ⟨rfl, namesSame_references hglyphs⟩
    | standalone =>
      dsimp only
      split
      · exact Option.Rel.none
      · exact Option.Rel.some ⟨rfl, namesSame_references hglyphs⟩

theorem missingCodepoints_congr (rules : CorpusRules) :
    missingCodepoints rules glyphs = missingCodepoints rules others := by
  have hdrawn : (drawnCodepoints glyphs).Perm (drawnCodepoints others) :=
    (hglyphs.filter _).filterMap _
  rw [missingCodepoints, missingCodepoints]
  exact List.filter_congr fun codepoint _ ↦ congrArg not hdrawn.contains_eq

theorem componentFinding?_congr :
    componentFinding? view glyphs = componentFinding? view others := by
  funext glyph
  have hunknown : unknownComponents glyphs glyph = unknownComponents others glyph :=
    List.filter_congr fun label _ ↦ congrArg not hglyphs.any_eq
  rw [componentFinding?, componentFinding?, hunknown]

end Checks

/-! ### Reports -/

theorem rejectionFindings_perm (view : Viewpoint) {rejections others : List Rejection}
    (hrejections : rejections.Perm others) :
    (rejectionFindings view rejections).Perm (rejectionFindings view others) := by
  apply List.Perm.map
  exact (List.mergeSort_perm _ _).trans (hrejections.trans (List.mergeSort_perm _ _).symm)

section Corpora

variable {settings : Settings} {view : Viewpoint} {corpus other : Corpus}
  (hglyphs : corpus.glyphs.Perm other.glyphs)
  (hrejections : corpus.rejections.Perm other.rejections)
include hglyphs hrejections

/-- The findings on a corpus in another order agree with those on the corpus, in some order. -/
theorem rel_findings :
    Multiset.Rel (Finding.Agrees view) (findings settings view corpus)
      (findings settings view other) := by
  have hactive : (activeGlyphs settings corpus.glyphs).Perm (activeGlyphs settings other.glyphs) :=
    hglyphs.filter _
  have hrefl := Finding.Agrees.refl view
  rw [findings, findings, missingCodepoints_congr hactive, componentFinding?_congr hactive]
  simp only [← Multiset.coe_add]
  refine .add (.add (.add (.add (.add ?_ ?_) ?_) ?_) ?_) ?_
  · exact rel_of_perm hrefl (rejectionFindings_perm view hrejections)
  · exact rel_of_perm hrefl (hglyphs.flatMap_right _)
  · exact rel_filterMap_groups (fun key ↦ (rel_codepointFinding? · key)) hactive
  · exact rel_filterMap_groups (fun key ↦ (rel_labelFinding? · key)) hactive
  · exact rel_of_perm hrefl (.refl _)
  · exact rel_of_perm hrefl (hactive.filterMap _)

theorem rel_issues_report :
    Multiset.Rel (Issue.Agrees view) (report settings view corpus).issues
      (report settings view other).issues := by
  rw [report, report, ← Multiset.map_coe, ← Multiset.map_coe, Multiset.rel_map]
  exact (rel_findings hglyphs hrejections).mono fun _ _ _ _ hagrees ↦ hagrees.issue

end Corpora

/-- Reports whose issues agree in some order say the same as often. -/
theorem perm_of_rel_agrees {view : Viewpoint} {issues others : List Issue}
    (hissues : Multiset.Rel (Issue.Agrees view) issues others) :
    (issues.map fun issue ↦ (issue.severity, issue.message)).Perm
      (others.map fun issue ↦ (issue.severity, issue.message)) := by
  rw [← Multiset.coe_eq_coe, ← Multiset.map_coe, ← Multiset.map_coe, ← Multiset.rel_eq,
    Multiset.rel_map]
  exact hissues.mono fun _ _ _ _ hagrees ↦ Prod.ext hagrees.severity hagrees.message

/-- Issues that say the same as often are as many of each severity. -/
theorem length_filter_severity {issues others : List Issue}
    (hissues : (issues.map fun issue ↦ (issue.severity, issue.message)).Perm
      (others.map fun issue ↦ (issue.severity, issue.message))) (severity : Severity) :
    (issues.filter (·.severity == severity)).length =
      (others.filter (·.severity == severity)).length := by
  have hcount := hissues.countP_eq fun told ↦ told.1 == severity
  rw [List.countP_map, List.countP_map] at hcount
  rw [← List.countP_eq_length_filter, ← List.countP_eq_length_filter]
  exact hcount

/-- A corpus in another order, of its glyphs and of the files rejected, is reported on by the same
severities and messages, each as often, and so by as many errors and warnings; it passes exactly if
it did before. The issues are the same but for the order in which one may name its glyphs. -/
theorem report_reordered (settings : Settings) (view : Viewpoint) {corpus other : Corpus}
    (hglyphs : corpus.glyphs.Perm other.glyphs)
    (hrejections : corpus.rejections.Perm other.rejections) :
    let told := report settings view corpus
    let retold := report settings view other
    (told.issues.map fun issue ↦ (issue.severity, issue.message)).Perm
        (retold.issues.map fun issue ↦ (issue.severity, issue.message)) ∧
      told.errors.length = retold.errors.length ∧
      told.warnings.length = retold.warnings.length ∧
      told.isValid = retold.isValid ∧
      Multiset.Rel (Issue.Agrees view) told.issues retold.issues := by
  intro told retold
  have hagree : Multiset.Rel (Issue.Agrees view) told.issues retold.issues :=
    rel_issues_report hglyphs hrejections
  have hsame := perm_of_rel_agrees hagree
  have herrors : told.errors.length = retold.errors.length := length_filter_severity hsame .error
  have hwarnings : told.warnings.length = retold.warnings.length :=
    length_filter_severity hsame .warning
  refine ⟨hsame, herrors, hwarnings, ?_, hagree⟩
  rw [Report.isValid, Report.isValid, Bool.eq_iff_iff, List.isEmpty_iff_length_eq_zero,
    List.isEmpty_iff_length_eq_zero, herrors]

/-- Two letters of one codepoint, one of which is ragged, and a ligature of an unknown letter,
looked at from behind, with two files rejected under one path. Six errors and a warning come in
another order, and the letters are named the other way round. -/
theorem report_reordered_letters :
    let settings : Settings :=
      { raster := ⟨1, 1, 1⟩, corpus := { requiredStart := 65, requiredEnd := 66 } }
    let view : Viewpoint := ⟨[], Path.here⟩
    let letter : Glyph :=
      { label := "A", codepoint := some 65, grid := [[true]], rasterLines := ["X"] }
    let ragged : Glyph := { letter with label := "a", grid := [[true], []] }
    let pair : Glyph :=
      { label := "AB", codepoint := none, grid := [[true, true]], components := some ["A", "B"],
        kind := .ligature, rasterLines := ["XX"] }
    let corpus : Corpus :=
      { glyphs := [letter, pair, ragged]
        rejections := [⟨Path.here, "no text"⟩, ⟨Path.here, "no raster"⟩] }
    let other : Corpus :=
      { glyphs := [ragged, pair, letter]
        rejections := [⟨Path.here, "no raster"⟩, ⟨Path.here, "no text"⟩] }
    corpus.glyphs.Perm other.glyphs ∧ corpus.rejections.Perm other.rejections ∧
      (report settings view corpus).issues ≠ (report settings view other).issues ∧
      (report settings view corpus).errors.length = 6 ∧
      (report settings view other).errors.length = 6 ∧
      (report settings view other).warnings.length = 1 ∧
      ((report settings view corpus).issues.map fun issue ↦ (issue.severity, issue.message)).Perm
        ((report settings view other).issues.map fun issue ↦ (issue.severity, issue.message)) ∧
      (report settings view corpus).isValid = (report settings view other).isValid := by
  intro settings view letter ragged pair corpus other
  have hglyphs : corpus.glyphs.Perm other.glyphs := by decide
  have hrejections : corpus.rejections.Perm other.rejections := by decide
  have hread : rejectionFindings view corpus.rejections =
      [⟨".", .unreadable "no text"⟩, ⟨".", .unreadable "no raster"⟩] := by
    rw [rejectionFindings, List.mergeSort_of_pairwise (by decide)]
    rfl
  have hreread : rejectionFindings view other.rejections =
      [⟨".", .unreadable "no raster"⟩, ⟨".", .unreadable "no text"⟩] := by
    rw [rejectionFindings, List.mergeSort_of_pairwise (by decide)]
    rfl
  have hdiffer : (report settings view corpus).issues ≠ (report settings view other).issues := by
    rw [report, report, findings, findings, hread, hreread]
    decide +kernel
  have hsix : (report settings view corpus).errors.length = 6 := by
    rw [report, findings, hread]
    decide +kernel
  have hone : (report settings view corpus).warnings.length = 1 := by
    rw [report, findings, hread]
    decide +kernel
  obtain ⟨hsame, herrors, hwarnings, hvalid, -⟩ :=
    report_reordered settings view hglyphs hrejections
  exact ⟨hglyphs, hrejections, hdiffer, hsix, herrors.symm.trans hsix, hwarnings.symm.trans hone,
    hsame, hvalid⟩

end Gate

end PixelFont
