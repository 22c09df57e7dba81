import Mathlib.Data.List.Nodup
import PixelFont.Font.Assembly
import PixelFont.Ligature.Resolution

/-!
What the components of ligatures are resolved to. A label stands for the only encoded glyph that
bears it, so that the components found tell the labels by which they were found: where encoded
glyphs have distinct names, two ligatures replace the same sequence exactly if they name the same
labels. Main statements: `nodup_components_iff`, `ligaturesFit_iff`.
-/

set_option autoImplicit false

namespace PixelFont

namespace Resolution

variable {glyphs : List Glyph} {label : String} {target ligature : Glyph}

/-- The ligatures among some glyphs that become substitutions. -/
def resolved (glyphs : List Glyph) : List Glyph :=
  (glyphs.filter Glyph.isLigature).filter (isResolved glyphs)

theorem substitutions_ofGlyphs (glyphs : List Glyph) :
    (ofGlyphs glyphs).substitutions = (resolved glyphs).map (substitution glyphs) :=
  rfl

theorem mem_bearers_iff :
    target ∈ bearers glyphs label ↔
      target ∈ glyphs ∧ (∃ codepoint, target.encoding? = some codepoint) ∧
        target.label = label := by
  rw [bearers, List.mem_filter, Bool.and_eq_true, Option.isSome_iff_exists, beq_iff_eq]

theorem target?_eq_some_iff :
    target? glyphs label = some target ↔ bearers glyphs label = [target] := by
  unfold target?
  split
  · rename_i found hfound
    rw [hfound]
    simp
  · rename_i hmany
    exact iff_of_false (by simp) (hmany target)

theorem mem_of_target? (htarget : target? glyphs label = some target) :
    target ∈ glyphs ∧ (∃ codepoint, target.encoding? = some codepoint) ∧
      target.label = label := by
  rw [← mem_bearers_iff, target?_eq_some_iff.mp htarget]
  exact List.mem_singleton_self target

theorem target?_eq_none_of_bearers {label : String} (hnone : bearers glyphs label = []) :
    target? glyphs label = none := by
  rw [target?, hnone]

/-- Among distinct glyphs, a label that an encoded one bears stands for no glyph exactly if
another one bears it as well. -/
theorem target?_eq_none_iff_of_mem (hglyphs : glyphs.Nodup)
    (htarget : target ∈ bearers glyphs label) :
    target? glyphs label = none ↔ ∃ other ∈ bearers glyphs label, other ≠ target := by
  have hbearers : (bearers glyphs label).Nodup := hglyphs.filter _
  rw [Option.eq_none_iff_forall_ne_some]
  constructor
  · intro hnone
    have hmany : bearers glyphs label ≠ [target] := mt target?_eq_some_iff.mpr (hnone target)
    exact ((hbearers.ne_singleton_iff target).mp hmany).resolve_left (List.ne_nil_of_mem htarget)
  · rintro ⟨other, hother, hne⟩ found hfound
    rw [target?_eq_some_iff.mp hfound, List.mem_singleton] at htarget hother
    exact hne (hother.trans htarget.symm)

theorem isResolved_iff :
    isResolved glyphs ligature = true ↔
      ligature.componentLabels ≠ [] ∧
        ∀ label ∈ ligature.componentLabels, ∃ target, target? glyphs label = some target := by
  rw [isResolved, missing, Bool.and_eq_true, Bool.not_eq_true', List.isEmpty_eq_false_iff,
    List.isEmpty_iff, List.filter_eq_nil_iff]
  simp only [Bool.not_eq_true, Option.isNone_eq_false_iff, Option.isSome_iff_exists]

/-- The components found of a ligature bear the labels that it names. -/
theorem map_label_targets {labels : List String}
    (hfound : ∀ label ∈ labels, ∃ target, target? glyphs label = some target) :
    (labels.filterMap (target? glyphs)).map Glyph.label = labels := by
  induction labels with
  | nil => rfl
  | cons label labels ih =>
    obtain ⟨⟨target, htarget⟩, hothers⟩ := List.forall_mem_cons.mp hfound
    rw [List.filterMap_cons_some htarget, List.map_cons, ih hothers,
      (mem_of_target? htarget).2.2]

theorem mem_resolved_iff :
    ligature ∈ resolved glyphs ↔
      ligature ∈ glyphs ∧ ligature.isLigature = true ∧ isResolved glyphs ligature = true := by
  rw [resolved, List.mem_filter, List.mem_filter, and_assoc]

/-- A ligature with components is left out exactly if one of them is not found. -/
theorem exists_unresolved_iff (hmem : ligature ∈ glyphs) (hkind : ligature.isLigature = true)
    (hsome : ligature.componentLabels ≠ []) :
    (∃ labels, (ligature, labels) ∈ (ofGlyphs glyphs).unresolved) ↔
      ∃ label ∈ ligature.componentLabels, target? glyphs label = none := by
  have hleft : (∃ labels, (ligature, labels) ∈ (ofGlyphs glyphs).unresolved) ↔
      isResolved glyphs ligature ≠ true := by
    simp [ofGlyphs, hmem, hkind]
  rw [hleft, ne_eq, isResolved_iff, and_iff_right hsome]
  simp only [not_forall, Option.eq_none_iff_forall_ne_some, not_exists, exists_prop]

/-- A substitution replaces at least one glyph, and its glyphs are among those it comes from. -/
theorem names_of_mem_resolved (hligature : ligature ∈ resolved glyphs) :
    (substitution glyphs ligature).components ≠ [] ∧
      (substitution glyphs ligature).ligature ∈ glyphs.map Glyph.name ∧
      ∀ component ∈ (substitution glyphs ligature).components,
        component ∈ glyphs.map Glyph.name := by
  obtain ⟨hmem, -, hresolved⟩ := mem_resolved_iff.mp hligature
  obtain ⟨hsome, hfound⟩ := isResolved_iff.mp hresolved
  refine ⟨fun hnone ↦ hsome ?_, List.mem_map_of_mem hmem, ?_⟩
  · rw [← map_label_targets hfound, List.map_eq_nil_iff.mp hnone, List.map_nil]
  · refine List.forall_mem_map.mpr (List.forall_mem_filterMap.mpr fun _ _ target htarget ↦ ?_)
    exact List.mem_map_of_mem (mem_of_target? htarget).1

/-! ### Sequences -/

/-- The glyphs by which text is reached. -/
def encoded (glyphs : List Glyph) : List Glyph :=
  glyphs.filter fun glyph ↦ glyph.encoding?.isSome

theorem mem_encoded_of_target? (htarget : target? glyphs label = some target) :
    target ∈ encoded glyphs := by
  obtain ⟨hmem, hencoding, -⟩ := mem_of_target? htarget
  exact List.mem_filter.mpr ⟨hmem, Option.isSome_iff_exists.mpr hencoding⟩

section Names

variable (hnames : ((encoded glyphs).map Glyph.name).Nodup)
include hnames

/-- Encoded glyphs in a row are told by their names. -/
theorem eq_of_map_name_eq {first second : List Glyph}
    (hfirst : ∀ glyph ∈ first, glyph ∈ encoded glyphs)
    (hsecond : ∀ glyph ∈ second, glyph ∈ encoded glyphs)
    (hsame : first.map Glyph.name = second.map Glyph.name) : first = second := by
  induction first generalizing second with
  | nil => exact (List.map_eq_nil_iff.mp hsame.symm).symm
  | cons glyph rest ih =>
    obtain ⟨other, others, rfl, hname, hrest⟩ := List.map_eq_cons_iff.mp hsame.symm
    rw [List.forall_mem_cons] at hfirst hsecond
    rw [ih hfirst.2 hsecond.2 hrest.symm,
      List.inj_on_of_nodup_map hnames hsecond.1 hfirst.1 hname]

/-- Two ligatures whose components are found replace the same sequence exactly if they name the
same labels. -/
theorem components_substitution_eq_iff {first second : Glyph}
    (hfirst : isResolved glyphs first = true) (hsecond : isResolved glyphs second = true) :
    (substitution glyphs first).components = (substitution glyphs second).components ↔
      first.componentLabels = second.componentLabels := by
  have hencoded (ligature : Glyph) :
      ∀ target ∈ ligature.componentLabels.filterMap (target? glyphs), target ∈ encoded glyphs :=
    List.forall_mem_filterMap.mpr fun _ _ _ ↦ mem_encoded_of_target?
  constructor
  · intro hsame
    have htargets := eq_of_map_name_eq hnames (hencoded first) (hencoded second) hsame
    rw [← map_label_targets (isResolved_iff.mp hfirst).2, htargets,
      map_label_targets (isResolved_iff.mp hsecond).2]
  · intro hlabels
    rw [substitution, substitution, hlabels]

/-- The sequences that substitutions replace are distinct exactly if the labels that their
ligatures name are. -/
theorem nodup_components_iff :
    ((ofGlyphs glyphs).substitutions.map Substitution.components).Nodup ↔
      ((resolved glyphs).map Glyph.componentLabels).Nodup := by
  rw [substitutions_ofGlyphs, List.map_map]
  unfold List.Nodup
  rw [List.pairwise_map, List.pairwise_map]
  refine List.Pairwise.iff_of_mem fun hfirst hsecond ↦ not_congr ?_
  exact components_substitution_eq_iff hnames (mem_resolved_iff.mp hfirst).2.2
    (mem_resolved_iff.mp hsecond).2.2

end Names

end Resolution

/-! ### The ligature feature -/

namespace Font

/-- Substitutions of glyphs of a font can be stored exactly if those of the same sequence have the
same ligature. -/
theorem ligaturesFit_iff {names : List String} {substitutions : List Substitution}
    (hrules : ∀ rule ∈ substitutions, rule.components ≠ [] ∧ rule.ligature ∈ names ∧
      ∀ component ∈ rule.components, component ∈ names) :
    ligaturesFit names substitutions = true ↔
      ∀ first ∈ substitutions, ∀ second ∈ substitutions,
        first.components = second.components → first.ligature = second.ligature := by
  have hagree (first second : Substitution) :
      (second.components != first.components || second.ligature == first.ligature) = true ↔
        (first.components = second.components → first.ligature = second.ligature) := by
    rw [Bool.or_eq_true, bne_iff_ne, beq_iff_eq, ← imp_iff_not_or]
    exact imp_congr eq_comm eq_comm
  simp only [ligaturesFit, List.all_eq_true, Bool.and_eq_true, hagree]
  refine forall₂_congr fun rule hrule ↦ and_iff_right ⟨?_, ?_⟩
  · simpa using (hrules rule hrule).1
  · simpa using (hrules rule hrule).2

end Font

end PixelFont
