import Mathlib.Algebra.BigOperators.Group.List.Basic
import Mathlib.Algebra.Ring.Int.Defs
import Mathlib.Data.List.Forall2
import PixelFont.Proofs.Gate.Forms
import PixelFont.Proofs.Ligature.Resolution

/-!
How far ligatures move the place of the next glyph. The gate asks that a ligature is as wide as its
components are together, and deriving a bold form leaves the width alone; a font takes the advance
of a ligature from its raster and that of every character from the settings. So text does not jump
where a ligature forms. The components name one outline each, since the names of characters are told
apart from each other and from those of ligatures. Main statement: `keepsAdvance_of_isValid_report`.
-/

set_option autoImplicit false

namespace PixelFont

namespace CompiledFont

/-- The outlines of a font that bear a name. -/
def named (compiled : CompiledFont) (name : String) : List Outline :=
  compiled.outlines.filter (·.name == name)

/-- How far the outlines that some names stand for move the place of the next glyph together. -/
def advanceOf (compiled : CompiledFont) (names : List String) : Int :=
  ((names.flatMap compiled.named).map Outline.advance).sum

end CompiledFont

/-- A substitution of a font, made for a ligature, keeps the advance: the outline of the ligature
stands under its name and advances as far as those that the components name, one for each. -/
structure Substitution.KeepsAdvance (settings : Settings) (compiled : CompiledFont)
    (ligature : Glyph) (rule : Substitution) : Prop where
  components : ∀ name ∈ rule.components, ∃ outline, compiled.named name = [outline]
  ligature : ∃ outline ∈ compiled.named rule.ligature,
    Compilation.outline settings ligature = .ok outline ∧
      outline.advance = compiled.advanceOf rule.components ∧
      outline.advance = rule.components.length * settings.advance

/-! ### Outlines by name -/

/-- A glyph whose name no other one bears is found by its name. -/
theorem Glyph.filter_name_eq_singleton {glyphs : List Glyph} (hglyphs : glyphs.Nodup)
    {target : Glyph} (htarget : target ∈ glyphs)
    (hname : ∀ other ∈ glyphs, other.name = target.name → other = target) :
    glyphs.filter (·.name == target.name) = [target] := by
  have hsame : glyphs.filter (·.name == target.name) = glyphs.filter (· == target) := by
    refine List.filter_congr fun other hother ↦ ?_
    rw [Bool.eq_iff_iff, beq_iff_eq, beq_iff_eq]
    exact ⟨hname other hother, congrArg Glyph.name⟩
  rw [hsame, List.filter_beq, List.count_eq_one_of_mem hglyphs htarget, List.replicate_one]

section Named

variable {settings : Settings} {glyphs : List Glyph} {compiled : CompiledFont}
  (houtlines : compiled.outlines = glyphs.map (Compilation.outlineOf settings))
include houtlines

theorem CompiledFont.named_eq (name : String) :
    compiled.named name =
      (glyphs.filter (·.name == name)).map (Compilation.outlineOf settings) := by
  rw [named, houtlines, List.filter_map]
  rfl

/-- Names that each stand for one glyph of a font stand together for the outlines of these. -/
theorem CompiledFont.flatMap_named_eq {targets : List Glyph}
    (htargets : ∀ target ∈ targets, glyphs.filter (·.name == target.name) = [target]) :
    (targets.map Glyph.name).flatMap compiled.named =
      targets.map (Compilation.outlineOf settings) := by
  rw [List.flatMap_map, List.map_eq_flatMap]
  refine List.flatMap_congr fun target htarget ↦ ?_
  rw [named_eq houtlines, htargets target htarget, List.map_singleton]

end Named

namespace Gate

open Resolution

/-! ### Advances -/

/-- A glyph that is drawn as it should be advances by the cells across it. -/
theorem IsDrawn.advance_outlineOf {settings : Settings} {glyph : Glyph}
    (hheight : 0 < settings.raster.height) (hdrawn : IsDrawn settings.raster glyph) :
    (Compilation.outlineOf settings glyph).advance =
      cellsAcross settings.raster glyph * settings.metrics.pixelSize := by
  have hwidth := width_eq_of_rows hheight hdrawn.height hdrawn.width
  change (if glyph.isLigature then (glyph.grid.width : Int) else settings.raster.width) *
    settings.metrics.pixelSize = _
  rw [hwidth]
  cases hkind : glyph.isLigature with
  | true => rfl
  | false => simp [cellsAcross, hkind]

/-- A character advances by the width that the glyphs of a font share. -/
theorem advance_outlineOf_of_encoding? (settings : Settings) {glyph : Glyph} {codepoint : Int}
    (hencoding : glyph.encoding? = some codepoint) :
    (Compilation.outlineOf settings glyph).advance = settings.advance := by
  change (if glyph.isLigature then (glyph.grid.width : Int) else settings.raster.width) *
    settings.metrics.pixelSize = _
  rw [(encoding?_eq_some_iff.mp hencoding).1, Settings.advance, Int.mul_comm]
  rfl

/-- The advances of characters in a row add up to as many times the shared one. -/
theorem sum_advance_outlineOf (settings : Settings) {targets : List Glyph}
    (htargets : ∀ target ∈ targets, ∃ codepoint, target.encoding? = some codepoint) :
    ((targets.map (Compilation.outlineOf settings)).map Outline.advance).sum =
      targets.length * settings.advance := by
  have hadvances : ∀ advance ∈
      (targets.map (Compilation.outlineOf settings)).map Outline.advance,
        advance = settings.advance := by
    rw [List.map_map]
    refine List.forall_mem_map.mpr fun target htarget ↦ ?_
    obtain ⟨codepoint, hencoding⟩ := htargets target htarget
    exact advance_outlineOf_of_encoding? settings hencoding
  rw [List.sum_eq_card_nsmul _ _ hadvances, List.length_map, List.length_map, Int.nsmul_eq_mul]

/-! ### Ligatures -/

/-- The substitution of a ligature whose components are characters of a font, told apart by their
names, keeps the advance if the ligature is as wide as they are. -/
theorem keepsAdvance_substitution {settings : Settings} {glyphs : List Glyph}
    {compiled : CompiledFont}
    (houtlines : compiled.outlines = glyphs.map (Compilation.outlineOf settings))
    (hnames : ∀ target ∈ glyphs, (∃ codepoint, target.encoding? = some codepoint) →
      glyphs.filter (·.name == target.name) = [target])
    {ligature : Glyph} (hligature : ligature ∈ resolved glyphs)
    (hcompiled : Compilation.outline settings ligature =
      .ok (Compilation.outlineOf settings ligature))
    (hadvance : (Compilation.outlineOf settings ligature).advance =
      ligature.componentLabels.length * settings.advance) :
    (substitution glyphs ligature).KeepsAdvance settings compiled ligature := by
  obtain ⟨hmem, -, hresolved⟩ := mem_resolved_iff.mp hligature
  have hlabels := map_label_targets (isResolved_iff.mp hresolved).2
  have hcomponents : (substitution glyphs ligature).components =
      (ligature.componentLabels.filterMap (target? glyphs)).map Glyph.name := rfl
  have htargets : ∀ target ∈ ligature.componentLabels.filterMap (target? glyphs),
      target ∈ glyphs ∧ ∃ codepoint, target.encoding? = some codepoint :=
    List.forall_mem_filterMap.mpr fun label _ target htarget ↦
      ⟨(mem_of_target? htarget).1, (mem_of_target? htarget).2.1⟩
  generalize ligature.componentLabels.filterMap (target? glyphs) = targets
    at hlabels hcomponents htargets
  have hfound : ∀ target ∈ targets, glyphs.filter (·.name == target.name) = [target] :=
    fun target htarget ↦ hnames target (htargets target htarget).1 (htargets target htarget).2
  have hlength : (substitution glyphs ligature).components.length =
      ligature.componentLabels.length := by
    rw [hcomponents, List.length_map, ← hlabels, List.length_map]
  constructor
  · rw [hcomponents]
    refine List.forall_mem_map.mpr fun target htarget ↦ ?_
    rw [CompiledFont.named_eq houtlines, hfound target htarget]
    exact ⟨_, rfl⟩
  · refine ⟨Compilation.outlineOf settings ligature, ?_, hcompiled, ?_, ?_⟩
    · rw [CompiledFont.named_eq houtlines]
      exact List.mem_map_of_mem (List.mem_filter.mpr ⟨hmem, beq_self_eq_true _⟩)
    · rw [CompiledFont.advanceOf, hcomponents, CompiledFont.flatMap_named_eq houtlines hfound,
        sum_advance_outlineOf settings fun target htarget ↦ (htargets target htarget).2,
        hadvance, ← hlength, hcomponents, List.length_map]
    · rw [hadvance, hlength]

/-- Behind the gate, every substitution of a font keeps the advance of what it replaces: it is made
for a ligature of the weight whose components are found, and the outline compiled from that ligature
advances as far as the outlines that stand under the names of its components. -/
theorem keepsAdvance_of_isValid_report {value : Value} {session : Session}
    (hread : Settings.ofValue value = .value session.settings)
    (hligatures : session.settings.corpus.ligatures = true) {view : Viewpoint} {corpus : Corpus}
    (hvalid : (report session.settings view corpus).isValid = true) (weight : Weight) :
    ∃ compiled, (session.compile corpus.glyphs weight).result = .ok compiled ∧
      List.Forall₂ (Substitution.KeepsAdvance session.settings compiled)
        (resolved (weight.select corpus.glyphs)) compiled.substitutions := by
  have hpublishable := isPublishable_of_isValid hread hvalid
  have haccepted := Settings.isAccepted_of_ofValue hread
  have hdistinct := (hpublishable.nodup_identities_selected weight).of_map
  have hnames : ∀ target ∈ Compilation.selected session.settings corpus.glyphs weight,
      (∃ codepoint, target.encoding? = some codepoint) →
        (Compilation.selected session.settings corpus.glyphs weight).filter
          (·.name == target.name) = [target] := by
    rintro target htarget ⟨codepoint, hencoding⟩
    exact Glyph.filter_name_eq_singleton hdistinct htarget fun other hother ↦
      hpublishable.eq_of_name_eq weight htarget hother hencoding
  refine ⟨_, hpublishable.result_compile hread weight, ?_⟩
  dsimp only
  rw [Compilation.resolution, if_pos hligatures, substitutions_ofGlyphs,
    ← selected_eq_select hligatures, List.forall₂_map_right_iff, List.forall₂_same]
  intro ligature hligature
  obtain ⟨hmem, hkind, -⟩ := mem_resolved_iff.mp hligature
  have hdrawn := hpublishable.isDrawn_selected weight haccepted.width_pos ligature hmem
  refine keepsAdvance_substitution rfl hnames hligature
    (Compilation.outline_eq_ok _ hdrawn.isRectangular) ?_
  rw [hdrawn.advance_outlineOf haccepted.height_pos, cellsAcross, if_pos hkind, Settings.advance,
    Int.natCast_mul, Int.mul_comm (session.settings.raster.width : Int), Int.mul_assoc,
    Int.mul_comm (session.settings.raster.width : Int)]

/-- In the bold font of a letter and a ligature of two of it, both of them widened, the ligature
advances by two cells. -/
theorem keepsAdvance_of_isValid_report_pair :
    let session : Session := { settings := Settings.oneCell, tree := FileTree.empty [] }
    let letter : Glyph :=
      { label := "A", codepoint := some 65, grid := [[true]], rasterLines := ["X"] }
    let pair : Glyph :=
      { label := "AA", codepoint := none, grid := [[true, false]], components := some ["A", "A"],
        kind := .ligature, rasterLines := ["X."] }
    let corpus : Corpus := { glyphs := [letter, pair] }
    Settings.ofValue Settings.oneCellRecord = .value session.settings ∧
      session.settings.corpus.ligatures = true ∧
      (report session.settings session.view corpus).isValid = true ∧
      ∃ compiled rule, (session.compile corpus.glyphs .bold).result = .ok compiled ∧
        compiled.substitutions = [rule] ∧
        rule.KeepsAdvance session.settings compiled pair.deriveBold := by
  intro session letter pair corpus
  have hread : Settings.ofValue Settings.oneCellRecord = .value session.settings :=
    Settings.ofValue_oneCellRecord
  have hligatures : session.settings.corpus.ligatures = true := rfl
  have hvalid : (report session.settings session.view corpus).isValid = true := by decide +kernel
  have hresolved : resolved (Weight.bold.select corpus.glyphs) = [pair.deriveBold] := by decide
  obtain ⟨compiled, hcompiled, hrules⟩ :=
    keepsAdvance_of_isValid_report hread hligatures hvalid .bold
  rw [hresolved] at hrules
  obtain ⟨rule, rules, hkeeps, hnone, hrule⟩ := List.forall₂_cons_left_iff.mp hrules
  rw [List.forall₂_nil_left_iff.mp hnone] at hrule
  exact ⟨hread, hligatures, hvalid, compiled, rule, hcompiled, hrule, hkeeps⟩

end Gate

end PixelFont
