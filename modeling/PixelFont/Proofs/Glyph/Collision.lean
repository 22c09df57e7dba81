import PixelFont.Proofs.Glyph.Naming

/-!
Names of glyphs as texts. A name begins with a letter and holds no other characters than letters and
digits of ASCII, points and low lines, so that it is never that of the empty glyph. Two glyphs come
under one name by a codepoint that encodes both, by a label that neither is encoded beside, or by a
character that is written by its code and a label that is this code: `name_collides_iff`.
-/

set_option autoImplicit false

namespace PixelFont

open Text

namespace GlyphName

/-! ### Characters -/

/-- Whether a text is safe as the name of a glyph: it begins with a letter, is made of letters and
digits of ASCII, points and low lines, and is not the name of the empty glyph. -/
structure IsSafe (name : String) : Prop where
  begins : ∃ c rest, name.toList = c :: rest ∧ c.isAlpha = true
  made_of : ∀ c ∈ name.toList, c.isAlphanum = true ∨ c = '.' ∨ c = '_'
  ne_notdef : name ≠ ".notdef"

/-- Padded numerals are made of digits behind the sign of a negative number. -/
theorem mem_padded {width : ℕ} {number : Int} {c : Char}
    (hc : c ∈ (Hexadecimal.padded width number).toList) :
    c.isAlphanum = true ∨ (c = '-' ∧ number < 0) := by
  simp only [Hexadecimal.padded, String.toList_ofList, List.mem_append] at hc
  rcases hc with (hsign | hzero) | hdigit
  · split at hsign
    · rename_i hnegative
      exact Or.inr ⟨List.mem_singleton.mp hsign, hnegative⟩
    · exact absurd hsign List.not_mem_nil
  · rw [List.eq_of_mem_replicate hzero]
    exact Or.inl rfl
  · exact Or.inl (Hexadecimal.isCapital_of_mem_digits hdigit).isAlphanum

theorem mem_ofCodepoint {codepoint : Int} {c : Char} (hc : c ∈ (ofCodepoint codepoint).toList) :
    c.isAlphanum = true ∨ (c = '-' ∧ codepoint < 0) := by
  have hopening : ("uni".toList ++ "u".toList).all Char.isAlphanum = true := by decide
  rw [List.all_eq_true] at hopening
  unfold ofCodepoint at hc
  split at hc
  · rw [String.toList_append, List.mem_append] at hc
    exact hc.elim (fun hmem ↦ Or.inl (hopening c (List.mem_append_left _ hmem))) mem_padded
  · rw [String.toList_append, List.mem_append] at hc
    exact hc.elim (fun hmem ↦ Or.inl (hopening c (List.mem_append_right _ hmem))) mem_padded

theorem mem_ofLabel {label : String} {c : Char} (hc : c ∈ (ofLabel label).toList) :
    c.isAlphanum = true ∨ c = '.' ∨ c = '_' := by
  have hopening : labelMark.toList.all (fun c ↦ c.isAlphanum || c == '.') = true := by decide
  simp only [List.all_eq_true, Bool.or_eq_true, beq_iff_eq] at hopening
  rw [ofLabel, String.toList_append, List.mem_append] at hc
  rcases hc with hmark | hlabel
  · exact (hopening c hmark).imp_right Or.inl
  · split at hlabel
    · rename_i hplain
      exact Or.inl ((isPlainLabel_eq_true_iff.mp hplain).2 c hlabel)
    · rw [String.toList_intercalate] at hlabel
      rcases mem_intercalate hlabel with hlowLine | ⟨part, hpart, hc⟩
      · exact Or.inr (Or.inr hlowLine)
      · obtain ⟨code, hcode, rfl⟩ := List.mem_map.mp hpart
        obtain ⟨character, -, rfl⟩ := List.mem_map.mp hcode
        exact Or.inl (Hexadecimal.isCapital_of_mem_padded hc).isAlphanum

/-! ### Codes -/

/-- Whether a label is a single character that is no letter or digit of ASCII, and a code is the
hexadecimal numeral of that character in at least four capital digits. -/
def IsCodeOf (code label : String) : Prop :=
  ∃ c, label.toList = [c] ∧ c.isAlphanum = false ∧
    Hexadecimal.IsNumeral 4 c.toNat code.toList

theorem isCodeOf_iff_spellsCode {code label : String} :
    IsCodeOf code label ↔ SpellsCode label code := by
  have hlabel (c : Char) : label.toList = [c] ↔ label = String.singleton c := by
    rw [← String.toList_inj, String.toList_singleton]
  have hcode (c : Char) : Hexadecimal.IsNumeral 4 c.toNat code.toList ↔
      code = Hexadecimal.padded 4 c.toNat := by
    rw [Hexadecimal.isNumeral_iff (by decide), String.toList_inj]
  simp only [IsCodeOf, SpellsCode, hlabel, hcode]
  exact exists_congr fun c ↦ and_left_comm

end GlyphName

namespace Glyph

/-! ### Glyphs -/

/-- Whether text reaches a glyph by a codepoint: the glyph is no ligature and has one. -/
def IsEncoded (glyph : Glyph) : Prop :=
  glyph.kind ≠ .ligature ∧ glyph.codepoint ≠ none

variable {glyph first second : Glyph}

theorem identity_of_isEncoded (hencoded : glyph.IsEncoded) :
    ∃ codepoint, glyph.codepoint = some codepoint ∧ glyph.identity = .codepoint codepoint := by
  obtain ⟨hkind, hcodepoint⟩ := hencoded
  obtain ⟨codepoint, hsome⟩ := Option.ne_none_iff_exists'.mp hcodepoint
  have hplain : glyph.isLigature = false := beq_eq_false_iff_ne.mpr hkind
  exact ⟨codepoint, hsome, by rw [identity, hplain, hsome]⟩

theorem identity_of_not_isEncoded (hencoded : ¬ glyph.IsEncoded) :
    glyph.identity = .label glyph.label := by
  cases hkind : glyph.kind with
  | ligature => rw [identity, isLigature_eq_true_iff.mpr hkind]
  | standalone =>
    cases hcodepoint : glyph.codepoint with
    | none =>
      rw [identity, hcodepoint]
      cases glyph.isLigature <;> rfl
    | some codepoint => exact absurd ⟨by simp [hkind], by simp [hcodepoint]⟩ hencoded

/-- Only the name of a negative codepoint holds a sign. -/
theorem mem_name {c : Char} (hc : c ∈ glyph.name.toList) :
    (c.isAlphanum = true ∨ c = '.' ∨ c = '_') ∨
      c = '-' ∧ ∃ codepoint, glyph.codepoint = some codepoint ∧ codepoint < 0 := by
  rw [name_eq_identity_name] at hc
  by_cases hencoded : glyph.IsEncoded
  · obtain ⟨codepoint, hcodepoint, hidentity⟩ := identity_of_isEncoded hencoded
    rw [hidentity] at hc
    rcases GlyphName.mem_ofCodepoint hc with halphanum | ⟨hsign, hnegative⟩
    · exact Or.inl (Or.inl halphanum)
    · exact Or.inr ⟨hsign, codepoint, hcodepoint, hnegative⟩
  · rw [identity_of_not_isEncoded hencoded] at hc
    exact Or.inl (GlyphName.mem_ofLabel hc)

theorem isSafe_name (hnatural : ∀ codepoint ∈ glyph.codepoint, 0 ≤ codepoint) :
    GlyphName.IsSafe glyph.name where
  begins := by
    rw [name_eq_identity_name]
    rcases Identity.head?_name glyph.identity with hhead | hhead
    all_goals
      obtain ⟨rest, hrest⟩ := List.head?_eq_some_iff.mp hhead
      exact ⟨_, rest, hrest, rfl⟩
  made_of := by
    intro c hc
    refine (mem_name hc).resolve_right ?_
    rintro ⟨-, codepoint, hcodepoint, hnegative⟩
    exact Int.not_lt.mpr (hnatural codepoint hcodepoint) hnegative
  ne_notdef := by
    rw [name_eq_identity_name]
    exact Identity.name_ne_notdef glyph.identity

/-- The codepoint by which text reaches a glyph is natural if that of the glyph is. -/
theorem isNatural_identity (hnatural : ∀ codepoint ∈ glyph.codepoint, 0 ≤ codepoint) :
    glyph.identity.IsNatural := by
  intro code hidentity
  by_cases hencoded : glyph.IsEncoded
  · obtain ⟨codepoint, hcodepoint, hsame⟩ := identity_of_isEncoded hencoded
    rw [hsame] at hidentity
    exact Identity.codepoint.inj hidentity ▸ hnatural codepoint hcodepoint
  · rw [identity_of_not_isEncoded hencoded] at hidentity
    exact absurd hidentity (by simp)

theorem name_eq_iff_of_isEncoded
    (hfirst : ∀ codepoint ∈ first.codepoint, 0 ≤ codepoint)
    (hsecond : ∀ codepoint ∈ second.codepoint, 0 ≤ codepoint)
    (hencoded : first.IsEncoded) :
    first.name = second.name ↔ second.IsEncoded ∧ first.codepoint = second.codepoint := by
  obtain ⟨codepoint, hcodepoint, hidentity⟩ := identity_of_isEncoded hencoded
  rw [name_eq_identity_name, name_eq_identity_name, Identity.name_eq_iff
    (isNatural_identity hfirst) (isNatural_identity hsecond), hidentity, hcodepoint]
  by_cases hother : second.IsEncoded
  · obtain ⟨code, hcode, hsame⟩ := identity_of_isEncoded hother
    simp [hsame, hcode, hother, Identity.SpellsCode]
  · simp [identity_of_not_isEncoded hother, hother, Identity.SpellsCode]

theorem name_eq_iff_of_not_isEncoded (hfirst : ¬ first.IsEncoded) (hsecond : ¬ second.IsEncoded) :
    first.name = second.name ↔ first.label = second.label ∨
      GlyphName.IsCodeOf second.label first.label ∨
      GlyphName.IsCodeOf first.label second.label := by
  rw [name_eq_identity_name, name_eq_identity_name, identity_of_not_isEncoded hfirst,
    identity_of_not_isEncoded hsecond, GlyphName.isCodeOf_iff_spellsCode,
    GlyphName.isCodeOf_iff_spellsCode]
  exact GlyphName.ofLabel_eq_iff

/-- Two glyphs whose codepoints are not negative have one name exactly if one codepoint encodes
both, or neither is encoded and they have one label or the label of one is the code of the single
character that the other is labelled by. Every such name is safe. -/
theorem name_collides_iff (hfirst : ∀ codepoint ∈ first.codepoint, 0 ≤ codepoint)
    (hsecond : ∀ codepoint ∈ second.codepoint, 0 ≤ codepoint) :
    (first.name = second.name ↔
      (first.IsEncoded ∧ second.IsEncoded ∧ first.codepoint = second.codepoint) ∨
      (¬ first.IsEncoded ∧ ¬ second.IsEncoded ∧ first.label = second.label) ∨
      (¬ first.IsEncoded ∧ ¬ second.IsEncoded ∧
        (GlyphName.IsCodeOf second.label first.label ∨
          GlyphName.IsCodeOf first.label second.label))) ∧
      GlyphName.IsSafe first.name := by
  refine ⟨?_, isSafe_name hfirst⟩
  by_cases hencoded : first.IsEncoded
  · rw [name_eq_iff_of_isEncoded hfirst hsecond hencoded]
    simp [hencoded]
  · by_cases hother : second.IsEncoded
    · rw [eq_comm, name_eq_iff_of_isEncoded hsecond hfirst hother]
      simp [hencoded, hother]
    · rw [name_eq_iff_of_not_isEncoded hencoded hother]
      simp [hencoded, hother]

/-- A ligature labelled by an exclamation mark, whose codepoint does not encode it. -/
def exclamation : Glyph where
  label := "!"
  codepoint := some 0x10FFFF
  grid := []
  kind := .ligature

/-- A glyph without a codepoint whose label is the code of the exclamation mark. -/
def numbered : Glyph where
  label := "0021"
  codepoint := none
  grid := []

theorem name_collides_iff_exclamation :
    (∀ codepoint ∈ exclamation.codepoint, 0 ≤ codepoint) ∧
      (∀ codepoint ∈ numbered.codepoint, 0 ≤ codepoint) ∧
      ¬ exclamation.IsEncoded ∧ ¬ numbered.IsEncoded ∧
      GlyphName.IsCodeOf numbered.label exclamation.label ∧
      exclamation.name = numbered.name ∧ GlyphName.IsSafe exclamation.name := by
  have hfirst : ∀ codepoint ∈ exclamation.codepoint, 0 ≤ codepoint := by decide
  have hsecond : ∀ codepoint ∈ numbered.codepoint, 0 ≤ codepoint := by decide
  have hligature : ¬ exclamation.IsEncoded := fun h ↦ h.1 rfl
  have hunencoded : ¬ numbered.IsEncoded := fun h ↦ h.2 rfl
  have hcode : GlyphName.IsCodeOf numbered.label exclamation.label :=
    ⟨'!', rfl, rfl, by simp [numbered], by decide, by decide, by decide⟩
  obtain ⟨hiff, hsafe⟩ := name_collides_iff hfirst hsecond
  exact ⟨hfirst, hsecond, hligature, hunencoded, hcode,
    hiff.mpr (Or.inr (Or.inr ⟨hligature, hunencoded, Or.inl hcode⟩)), hsafe⟩

end Glyph

end PixelFont
