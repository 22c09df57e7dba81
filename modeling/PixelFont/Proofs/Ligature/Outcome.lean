import Mathlib.Data.List.Forall2
import PixelFont.Proofs.Ligature.Resolution
import PixelFont.Proofs.Traversal

/-!
What becomes of every ligature. A label is told apart if exactly one standalone glyph with a
codepoint bears it, wherever that glyph stands and whatever else bears the label. A ligature is left
out if it has no components or a label of one is not told apart, and is else replaced component by
component (`IsReplacedBy`). Both lists keep the order of the glyphs, and every ligature is in one of
them only. Main statement: `ofGlyphs_settlesLigatures`.
-/

set_option autoImplicit false

namespace PixelFont.Resolution

/-- Whether a glyph is one that a label may stand for: a standalone glyph with a codepoint that
bears it. -/
def IsBearer (label : String) (glyph : Glyph) : Prop :=
  glyph.kind = .standalone ∧ glyph.codepoint ≠ none ∧ glyph.label = label

instance (label : String) : DecidablePred (IsBearer label) :=
  fun _ ↦ inferInstanceAs (Decidable (_ ∧ _ ∧ _))

/-- Whether exactly one of the glyphs is one that a label may stand for. -/
def IsToldApart (glyphs : List Glyph) (label : String) : Prop :=
  glyphs.countP (IsBearer label ·) = 1

instance (glyphs : List Glyph) : DecidablePred (IsToldApart glyphs) :=
  fun _ ↦ inferInstanceAs (Decidable (_ = _))

/-- Whether a ligature has no components or names one by a label that is not told apart. -/
def IsLeftOut (glyphs : List Glyph) (ligature : Glyph) : Prop :=
  ligature.componentLabels = [] ∨ ∃ label ∈ ligature.componentLabels, ¬ IsToldApart glyphs label

instance (glyphs : List Glyph) : DecidablePred (IsLeftOut glyphs) :=
  fun _ ↦ inferInstanceAs (Decidable (_ = _ ∨ ∃ _ ∈ _, ¬ _))

/-- A substitution replaces the components of a ligature one by one: at the place of each label
stand the name and the codepoint of the only glyph that the label may stand for. -/
structure IsReplacedBy (glyphs : List Glyph) (ligature : Glyph) (substitution : Substitution) :
    Prop where
  name : substitution.ligature = ligature.name
  length_components : substitution.components.length = ligature.componentLabels.length
  length_codepoints : substitution.codepoints.length = ligature.componentLabels.length
  component : ∀ (i : ℕ) (label : String), ligature.componentLabels[i]? = some label →
    IsToldApart glyphs label ∧ ∃ target ∈ glyphs, IsBearer label target ∧
      substitution.components[i]? = some target.name ∧
      substitution.codepoints[i]? = target.codepoint

variable {glyphs : List Glyph} {label : String} {target ligature : Glyph}

/-! ### Labels -/

theorem bearers_eq (glyphs : List Glyph) (label : String) :
    bearers glyphs label = glyphs.filter (IsBearer label ·) := by
  refine List.filter_congr fun glyph _ ↦ ?_
  rw [Glyph.encoding?, Glyph.isLigature, Bool.eq_iff_iff]
  cases hkind : glyph.kind <;> cases hcodepoint : glyph.codepoint <;>
    simp [IsBearer, hkind, hcodepoint]

theorem isToldApart_iff : IsToldApart glyphs label ↔ (target? glyphs label).isSome = true := by
  rw [IsToldApart, List.countP_eq_length_filter, ← bearers_eq, List.length_eq_one_iff,
    Option.isSome_iff_exists]
  simp only [target?_eq_some_iff]

/-- A label that stands for a glyph is one that this glyph bears. -/
theorem isBearer_of_target? (htarget : target? glyphs label = some target) :
    target ∈ glyphs ∧ IsBearer label target := by
  have hmem : target ∈ bearers glyphs label := by
    rw [target?_eq_some_iff.mp htarget]
    exact List.mem_singleton_self target
  rw [bearers_eq, List.mem_filter, decide_eq_true_eq] at hmem
  exact hmem

theorem missing_eq (glyphs : List Glyph) (ligature : Glyph) :
    missing glyphs ligature =
      ligature.componentLabels.filter fun label ↦ ¬ IsToldApart glyphs label := by
  refine List.filter_congr fun label _ ↦ ?_
  rw [Bool.eq_iff_iff]
  simp [isToldApart_iff]

/-! ### Ligatures -/

theorem isLeftOut_iff : IsLeftOut glyphs ligature ↔ isResolved glyphs ligature = false := by
  rw [← Bool.not_eq_true, isResolved_iff, IsLeftOut, not_and_or, Ne, not_not]
  simp only [isToldApart_iff, Option.isSome_iff_exists, not_forall, exists_prop]

theorem isReplacedBy_substitution (hresolved : isResolved glyphs ligature = true) :
    IsReplacedBy glyphs ligature (substitution glyphs ligature) := by
  let targets := ligature.componentLabels.filterMap (target? glyphs)
  have hfound : ∀ label ∈ ligature.componentLabels, (target? glyphs label).isSome = true :=
    fun label hlabel ↦ Option.isSome_iff_exists.mpr ((isResolved_iff.mp hresolved).2 label hlabel)
  have hencoded : ∀ target ∈ targets, target.codepoint.isSome = true := by
    refine List.forall_mem_filterMap.mpr fun label _ target htarget ↦ ?_
    exact Option.isSome_iff_ne_none.mpr (isBearer_of_target? htarget).2.2.1
  have htargets : targets.length = ligature.componentLabels.length :=
    Traversal.length_filterMap hfound
  refine ⟨rfl, (List.length_map _).trans htargets,
    (Traversal.length_filterMap hencoded).trans htargets, fun i label hlabel ↦ ?_⟩
  have htold := hfound label (List.mem_of_getElem? hlabel)
  obtain ⟨target, htarget⟩ := Option.isSome_iff_exists.mp htold
  have hplace : targets[i]? = some target := by
    rw [Traversal.getElem?_filterMap hfound, hlabel, Option.bind_some, htarget]
  obtain ⟨hmem, hbearer⟩ := isBearer_of_target? htarget
  refine ⟨isToldApart_iff.mpr htold, target, hmem, hbearer, ?_, ?_⟩
  · have hname := List.getElem?_map (f := Glyph.name) (l := targets) (i := i)
    rw [hplace] at hname
    exact hname
  · have hcodepoint := Traversal.getElem?_filterMap hencoded i
    rw [hplace] at hcodepoint
    exact hcodepoint

/-- The ligatures of a kind, in the order of the glyphs. -/
theorem filter_ligatures (glyphs : List Glyph) {keep : Glyph → Bool} {property : Glyph → Prop}
    [DecidablePred property] (hkeep : ∀ glyph, keep glyph = true ↔ property glyph) :
    (glyphs.filter Glyph.isLigature).filter keep =
      glyphs.filter fun glyph ↦ glyph.kind = .ligature ∧ property glyph := by
  rw [List.filter_filter]
  refine List.filter_congr fun glyph _ ↦ ?_
  rw [Bool.eq_iff_iff]
  simp [hkeep, Glyph.isLigature, and_comm]

/-- Every ligature, in the order of the glyphs, is either left out, with the labels that are not
told apart, or replaced component by component. -/
theorem ofGlyphs_settlesLigatures (glyphs : List Glyph) :
    (ofGlyphs glyphs).unresolved =
        (glyphs.filter fun glyph ↦ glyph.kind = .ligature ∧ IsLeftOut glyphs glyph).map
          (fun ligature ↦ (ligature,
            ligature.componentLabels.filter fun label ↦ ¬ IsToldApart glyphs label)) ∧
      List.Forall₂ (IsReplacedBy glyphs)
        (glyphs.filter fun glyph ↦ glyph.kind = .ligature ∧ ¬ IsLeftOut glyphs glyph)
        (ofGlyphs glyphs).substitutions := by
  constructor
  · have hkeep (ligature : Glyph) :
        (!isResolved glyphs ligature) = true ↔ IsLeftOut glyphs ligature := by
      rw [isLeftOut_iff, Bool.not_eq_true']
    rw [← filter_ligatures glyphs hkeep]
    refine List.map_congr_left fun ligature _ ↦ ?_
    rw [missing_eq]
  · have hkeep (ligature : Glyph) :
        isResolved glyphs ligature = true ↔ ¬ IsLeftOut glyphs ligature := by
      rw [isLeftOut_iff, Bool.not_eq_false]
    rw [substitutions_ofGlyphs, resolved, filter_ligatures glyphs hkeep,
      List.forall₂_map_right_iff, List.forall₂_same]
    intro ligature hligature
    have hsettled := of_decide_eq_true (List.mem_filter.mp hligature).2
    exact isReplacedBy_substitution ((hkeep ligature).mpr hsettled.2)

end PixelFont.Resolution
