import Mathlib.Data.List.Nodup
import PixelFont.Ligature.Feature
import PixelFont.Proofs.Glyph.Collision
import PixelFont.Proofs.Text.Ordering
import PixelFont.Proofs.Text.Trimming
import PixelFont.Proofs.Traversal

/-!
The rules of the ligature feature as they are read and applied. A rule is read back from its line
(`LigatureRule.ofLine?_rule`), and the rules of the text are those of the substitutions, sorted.
Where several rules apply at one place the first of them counts, and no other replaces more glyphs
(`length_le_of_find?`). Sequences that are all different are sorted in one way only, so that the
order of the substitutions does not matter (`inOrder_eq_of_perm`). Main statement:
`ligatureFeature?_longestFirst`.
-/

set_option autoImplicit false

namespace PixelFont

open Text

/-- What a rule of the ligature feature says: glyphs in a row, given by their names, are replaced by
a ligature. -/
structure LigatureRule where
  components : List String
  ligature : String
  deriving DecidableEq, Repr

namespace LigatureRule

/-- The rule that a line gives: behind four spaces and `sub` the names of the components, behind
`by` the name of the ligature, and a semicolon. One space stands between two words. -/
def ofLine? (line : List Char) : Option LigatureRule :=
  match line.splitOn ' ' with
  | [] :: [] :: [] :: [] :: ['s', 'u', 'b'] :: words =>
    match words.reverse with
    | last :: ['b', 'y'] :: components =>
      if last.getLast? = some ';' then
        some ⟨components.reverse.map String.ofList, String.ofList last.dropLast⟩
      else none
    | _ => none
  | _ => none

/-- The rules that a text gives: one on each line between the one that opens the feature and the one
that closes it. -/
def ofFeature? (text : String) : Option (List LigatureRule) :=
  match text.toList.splitOn '\n' with
  | [] => none
  | opening :: rest =>
    if opening = "feature liga \x7b".toList ∧ rest.getLast? = some "\x7d liga;".toList then
      rest.dropLast.mapM ofLine?
    else none

/-- Whether the components of a rule stand in a sequence of names at a position. -/
def StandsAt (rule : LigatureRule) (names : List String) (position : ℕ) : Prop :=
  rule.components <+: names.drop position

instance (names : List String) (position : ℕ) :
    DecidablePred fun rule : LigatureRule ↦ rule.StandsAt names position :=
  fun _ ↦ inferInstanceAs (Decidable (_ <+: _))

end LigatureRule

/-- Whether a name can stand in a rule: it holds no white space and no semicolon. -/
def IsBareName (name : String) : Prop :=
  ∀ c ∈ name.toList, isSpace c = false ∧ c ≠ ';'

instance : DecidablePred IsBareName :=
  fun name ↦ List.decidableBAll (fun c ↦ isSpace c = false ∧ c ≠ ';') name.toList

/-- The name of every glyph can stand in a rule. -/
theorem Glyph.isBareName_name (glyph : Glyph) : IsBareName glyph.name := by
  intro c hc
  rcases mem_name hc with (halphanum | rfl | rfl) | ⟨rfl, -⟩
  · refine ⟨isSpace_of_isAlphanum halphanum, ?_⟩
    rintro rfl
    exact absurd halphanum (by decide)
  all_goals decide

namespace Substitution

/-- The rule that a substitution stands for. -/
def toRule (substitution : Substitution) : LigatureRule :=
  ⟨substitution.components, substitution.ligature⟩

/-- Whether a substitution can be written as a rule: it has components, and all its names can stand
in one. -/
structure IsWritable (substitution : Substitution) : Prop where
  components_ne_nil : substitution.components ≠ []
  component : ∀ component ∈ substitution.components, IsBareName component
  ligature : IsBareName substitution.ligature

instance : DecidablePred IsWritable := fun substitution ↦
  decidable_of_iff (substitution.components ≠ [] ∧
      (∀ component ∈ substitution.components, IsBareName component) ∧
        IsBareName substitution.ligature)
    ⟨fun h ↦ ⟨h.1, h.2.1, h.2.2⟩,
      fun h ↦ ⟨h.components_ne_nil, h.component, h.ligature⟩⟩

variable {substitution first second third : Substitution} {substitutions others : List Substitution}

/-! ### Lines -/

theorem toList_rule (substitution : Substitution) :
    substitution.rule.toList = "    sub".toList ++ ' ' ::
      ((" ".intercalate substitution.components).toList ++ ' ' ::
        ("by".toList ++ ' ' :: (substitution.ligature.toList ++ [';']))) := by
  simp [rule, String.toList_append]

/-- A rule is read back from its line. -/
theorem ofLine?_rule (hwritable : substitution.IsWritable) :
    LigatureRule.ofLine? substitution.rule.toList = some substitution.toRule := by
  have hsub : "    sub".toList.splitOn ' ' = [[], [], [], [], ['s', 'u', 'b']] := by decide
  have hby : "by".toList.splitOn ' ' = [['b', 'y']] := by decide
  have hspace {name : String} (hbare : IsBareName name) : ' ' ∉ name.toList :=
    fun hmem ↦ absurd (hbare ' ' hmem).1 (by decide)
  have hcomponents : (" ".intercalate substitution.components).toList.splitOn ' ' =
      substitution.components.map String.toList :=
    splitOn_intercalate rfl hwritable.components_ne_nil
      fun name hname ↦ hspace (hwritable.component name hname)
  have hligature : (substitution.ligature.toList ++ [';']).splitOn ' ' =
      [substitution.ligature.toList ++ [';']] := by
    refine List.splitOn_eq_singleton ?_
    simpa using hspace hwritable.ligature
  rw [LigatureRule.ofLine?, toList_rule, List.splitOn_append_cons_self,
    List.splitOn_append_cons_self, List.splitOn_append_cons_self, hsub, hby, hcomponents,
    hligature]
  simp [toRule]

theorem feed_notMem_rule (hwritable : substitution.IsWritable) :
    '\n' ∉ substitution.rule.toList := by
  have hfeed {name : String} (hbare : IsBareName name) : '\n' ∉ name.toList :=
    fun hmem ↦ absurd (hbare '\n' hmem).1 (by decide)
  have hcomponents : '\n' ∉ [' '].intercalate (substitution.components.map String.toList) := by
    intro hmem
    rcases mem_intercalate hmem with hspace | ⟨part, hpart, hc⟩
    · exact absurd hspace (by decide)
    · obtain ⟨name, hname, rfl⟩ := List.mem_map.mp hpart
      exact hfeed (hwritable.component name hname) hc
  rw [toList_rule]
  simp [hcomponents, hfeed hwritable.ligature]

/-! ### The order of rules -/

theorem precedes_iff :
    precedes first second = true ↔ second.components.length < first.components.length ∨
      (first.components.length = second.components.length ∧
        listOfTextsBefore second.components first.components = false) := by
  simp [precedes]

theorem length_le_of_precedes (hprecedes : precedes first second = true) :
    second.components.length ≤ first.components.length := by
  rcases precedes_iff.mp hprecedes with hless | ⟨hsame, -⟩
  · exact Nat.le_of_lt hless
  · exact Nat.le_of_eq hsame.symm

theorem precedes_total (first second : Substitution) :
    (precedes first second || precedes second first) = true := by
  rw [Bool.or_eq_true, precedes_iff, precedes_iff]
  rcases Nat.lt_trichotomy first.components.length second.components.length with
    hless | hsame | hless
  · exact Or.inr (Or.inl hless)
  · cases hbefore : listOfTextsBefore second.components first.components with
    | false => exact Or.inl (Or.inr ⟨hsame, rfl⟩)
    | true => exact Or.inr (Or.inr ⟨hsame.symm, listOfTextsBefore_asymm hbefore⟩)
  · exact Or.inl (Or.inl hless)

theorem precedes_trans (hfirst : precedes first second = true)
    (hsecond : precedes second third = true) : precedes first third = true := by
  rw [precedes_iff] at hfirst hsecond ⊢
  rcases hfirst with hless | ⟨hlength, hbefore⟩
  · rcases hsecond with hnext | ⟨hnext, -⟩
    · exact Or.inl (Nat.lt_trans hnext hless)
    · exact Or.inl (hnext ▸ hless)
  · rcases hsecond with hnext | ⟨hnext, hlater⟩
    · exact Or.inl (hlength ▸ hnext)
    · exact Or.inr ⟨hlength.trans hnext, listOfTextsBefore_eq_false_trans hbefore hlater⟩

/-- Two substitutions come before each other only if they replace the same sequence. -/
theorem components_eq_of_precedes (hfirst : precedes first second = true)
    (hsecond : precedes second first = true) : first.components = second.components := by
  by_contra hne
  have hlength : first.components.length = second.components.length :=
    Nat.le_antisymm (length_le_of_precedes hsecond) (length_le_of_precedes hfirst)
  have hforth := (precedes_iff.mp hfirst).resolve_left (Nat.not_lt_of_le (Nat.le_of_eq hlength))
  have hback := (precedes_iff.mp hsecond).resolve_left
    (Nat.not_lt_of_le (Nat.le_of_eq hlength.symm))
  rcases listOfTextsBefore_total hne with hbefore | hbefore
  · exact Bool.eq_false_iff.mp hback.2 hbefore
  · exact Bool.eq_false_iff.mp hforth.2 hbefore

theorem pairwise_inOrder (substitutions : List Substitution) :
    (inOrder substitutions).Pairwise (precedes · · = true) := by
  have htrans (first second third : Substitution) : precedes first second = true →
      precedes second third = true → precedes first third = true := precedes_trans
  exact List.pairwise_mergeSort htrans precedes_total substitutions

theorem inOrder_perm (substitutions : List Substitution) :
    (inOrder substitutions).Perm substitutions :=
  List.mergeSort_perm substitutions precedes

/-- Substitutions of different sequences are put in order in one way only. -/
theorem inOrder_eq_of_perm (hdistinct : (substitutions.map components).Nodup)
    (hperm : others.Perm substitutions) : inOrder others = inOrder substitutions := by
  have hsame : (inOrder others).Perm (inOrder substitutions) :=
    (inOrder_perm others).trans (hperm.trans (inOrder_perm substitutions).symm)
  refine hsame.eq_of_pairwise (fun first second hfirst hsecond hforth hback ↦ ?_)
    (pairwise_inOrder others) (pairwise_inOrder substitutions)
  have hfirst : first ∈ substitutions :=
    (inOrder_perm substitutions).subset (hsame.subset hfirst)
  have hsecond : second ∈ substitutions := (inOrder_perm substitutions).subset hsecond
  exact List.inj_on_of_nodup_map hdistinct hfirst hsecond
    (components_eq_of_precedes hforth hback)

end Substitution

/-- Among rules of which none is longer than those before it, the first that stands at a position is
the longest that does. -/
theorem length_le_of_find? {rules : List LigatureRule} {names : List String} {position : ℕ}
    {rule : LigatureRule}
    (hrules : rules.Pairwise fun earlier later ↦
      later.components.length ≤ earlier.components.length)
    (hfirst : rules.find? (·.StandsAt names position) = some rule) :
    ∀ other ∈ rules, other.StandsAt names position →
      other.components.length ≤ rule.components.length := by
  obtain ⟨-, before, after, rfl, hbefore⟩ := List.find?_eq_some_iff_append.mp hfirst
  intro other hother hstands
  rcases List.mem_append.mp hother with hearlier | hlater
  · exact absurd hstands (by simpa using hbefore other hearlier)
  · rcases List.mem_cons.mp hlater with rfl | hlater
    · exact Nat.le_refl _
    · have hpairwise := (List.pairwise_append.mp hrules).2.1
      exact (List.pairwise_cons.mp hpairwise).1 other hlater

/-! ### The text of the feature -/

theorem ligatureFeature?_eq_some {substitutions : List Substitution} (hne : substitutions ≠ []) :
    ligatureFeature? substitutions = some ("\n".intercalate ("feature liga \x7b" ::
      ((Substitution.inOrder substitutions).map Substitution.rule ++ ["\x7d liga;"]))) := by
  rw [ligatureFeature?, if_neg (by simpa using hne)]
  rfl

/-- The rules of the feature are read back from its text, in order. -/
theorem ofFeature?_ligatureFeature {substitutions : List Substitution}
    (hwritable : ∀ substitution ∈ substitutions, substitution.IsWritable) :
    LigatureRule.ofFeature? ("\n".intercalate ("feature liga \x7b" ::
      (substitutions.map Substitution.rule ++ ["\x7d liga;"]))) =
        some (substitutions.map Substitution.toRule) := by
  have hfree : ∀ line ∈ "feature liga \x7b" ::
      (substitutions.map Substitution.rule ++ ["\x7d liga;"]), '\n' ∉ line.toList := by
    rw [List.forall_mem_cons, List.forall_mem_append, List.forall_mem_map,
      List.forall_mem_singleton]
    exact ⟨by decide, fun substitution hmem ↦
      Substitution.feed_notMem_rule (hwritable substitution hmem), by decide⟩
  rw [LigatureRule.ofFeature?, splitOn_intercalate rfl (List.cons_ne_nil _ _) hfree,
    List.map_cons, List.map_append, List.map_singleton, List.map_map]
  dsimp only
  rw [if_pos ⟨rfl, List.getLast?_concat⟩, List.dropLast_concat]
  exact Traversal.mapM_map_eq_some_map fun substitution hmem ↦
    Substitution.ofLine?_rule (hwritable substitution hmem)

/-- Names of glyphs can stand in rules. Of substitutions with components whose names can do so the
feature holds one rule each, from which they are read back; at every place of a sequence of names
the first rule that applies replaces no fewer glyphs than the others that do; and if no two
substitutions replace the same sequence, the text does not depend on their order. -/
theorem ligatureFeature?_longestFirst {substitutions : List Substitution}
    (hne : substitutions ≠ [])
    (hwritable : ∀ substitution ∈ substitutions, substitution.IsWritable) :
    (∀ glyph : Glyph, IsBareName glyph.name) ∧
      ∃ text rules, ligatureFeature? substitutions = some text ∧
        LigatureRule.ofFeature? text = some rules ∧
        rules.Perm (substitutions.map Substitution.toRule) ∧
        (∀ names position rule, rules.find? (·.StandsAt names position) = some rule →
          ∀ other ∈ rules, other.StandsAt names position →
            other.components.length ≤ rule.components.length) ∧
        ((substitutions.map Substitution.components).Nodup →
          ∀ others, others.Perm substitutions → ligatureFeature? others = some text) := by
  have hperm := Substitution.inOrder_perm substitutions
  have hrules := ofFeature?_ligatureFeature fun substitution hmem ↦
    hwritable substitution (hperm.subset hmem)
  refine ⟨Glyph.isBareName_name, _, _, ligatureFeature?_eq_some hne, hrules, hperm.map _, ?_, ?_⟩
  · intro names position rule hfirst
    refine length_le_of_find? ?_ hfirst
    exact (Substitution.pairwise_inOrder substitutions).map Substitution.toRule
      fun _ _ ↦ Substitution.length_le_of_precedes
  · intro hdistinct others hothers
    have hnil : others ≠ [] := by
      rintro rfl
      exact hne hothers.symm.eq_nil
    rw [ligatureFeature?_eq_some hnil, Substitution.inOrder_eq_of_perm hdistinct hothers]

/-- Substitutions of which the first replaces the beginning of what the second does, and the third
as many glyphs as the first. -/
def beginnings : List Substitution :=
  [⟨"lig.ff", ["uni0066", "uni0066"], [0x66, 0x66]⟩,
    ⟨"lig.ffi", ["uni0066", "uni0066", "uni0069"], [0x66, 0x66, 0x69]⟩,
    ⟨"lig.0021_0021", ["uni0021", "uni0021"], [0x21, 0x21]⟩]

theorem ligatureFeature?_longestFirst_beginnings :
    beginnings ≠ [] ∧ (∀ substitution ∈ beginnings, substitution.IsWritable) ∧
      (beginnings.map Substitution.components).Nodup ∧
      ∃ text rules, ligatureFeature? beginnings = some text ∧
        LigatureRule.ofFeature? text = some rules ∧
        rules.Perm (beginnings.map Substitution.toRule) ∧
        (∀ names position rule, rules.find? (·.StandsAt names position) = some rule →
          ∀ other ∈ rules, other.StandsAt names position →
            other.components.length ≤ rule.components.length) ∧
        ∀ others, others.Perm beginnings → ligatureFeature? others = some text := by
  have hne : beginnings ≠ [] := by decide
  have hwritable : ∀ substitution ∈ beginnings, substitution.IsWritable := by decide
  have hdistinct : (beginnings.map Substitution.components).Nodup := by decide
  obtain ⟨-, text, rules, htext, hrules, hperm, hlongest, horder⟩ :=
    ligatureFeature?_longestFirst hne hwritable
  exact ⟨hne, hwritable, hdistinct, text, rules, htext, hrules, hperm, hlongest,
    horder hdistinct⟩

end PixelFont
