import PixelFont.Glyph.Name
import PixelFont.Proofs.Text.Joining
import PixelFont.Proofs.Text.Numeral

/-!
When two glyphs of a font come under one name. The name of a glyph depends on its identity alone,
and two identities have two names, with one exception: a label of a single character that is no
letter or digit is written by its code, and another label may be that code. Main statement:
`Identity.name_eq_iff`.
-/

set_option autoImplicit false

namespace PixelFont

open Text

namespace GlyphName

/-- Whether a label is one character that names do not take as it is, and another label the
code that stands for it. -/
def SpellsCode (label code : String) : Prop :=
  ∃ c : Char, c.isAlphanum = false ∧ label = String.singleton c ∧
    code = Hexadecimal.padded 4 c.toNat

/-! ### Labels -/

theorem isPlainLabel_eq_true_iff {label : String} :
    isPlainLabel label = true ↔
      label.toList ≠ [] ∧ ∀ c ∈ label.toList, c.isAlphanum = true := by
  simp [isPlainLabel]

theorem isPlainLabel_padded (width number : ℕ) (hwidth : 0 < width) :
    isPlainLabel (Hexadecimal.padded width number) = true := by
  rw [isPlainLabel_eq_true_iff]
  constructor
  · have hlength := Hexadecimal.le_length_padded width number
    exact List.ne_nil_of_length_pos (Nat.lt_of_lt_of_le hwidth hlength)
  · exact fun c hc ↦ (Hexadecimal.isCapital_of_mem_padded hc).isAlphanum

theorem isPlainLabel_singleton (c : Char) :
    isPlainLabel (String.singleton c) = c.isAlphanum := by
  simp [isPlainLabel]

/-- A low line is no letter or digit, so that it separates codes. -/
theorem lowLine_notMem_codes {label code : String} (hcode : code ∈ codes label) :
    '_' ∉ code.toList := by
  obtain ⟨c, -, rfl⟩ := List.mem_map.mp hcode
  intro hlowLine
  exact absurd (Hexadecimal.isCapital_of_mem_padded hlowLine).isAlphanum (by decide)

theorem codes_injective {first second : String} (hsame : codes first = codes second) :
    first = second := by
  refine String.toList_inj.mp ((List.map_inj_right fun c other hcode ↦ ?_).mp hsame)
  exact Char.toNat_inj.mp (Hexadecimal.padded_injective hcode)

theorem codes_eq_nil_iff {label : String} : codes label = [] ↔ label = "" := by
  simp [codes]

/-- The codes of a label, joined, are a plain label only if there is one of them. -/
theorem intercalate_codes_eq_iff {label plain : String} (hplain : isPlainLabel plain = true) :
    "_".intercalate (codes label) = plain ↔
      ∃ c, label = String.singleton c ∧ plain = Hexadecimal.padded 4 c.toNat := by
  obtain ⟨hne, halphanum⟩ := isPlainLabel_eq_true_iff.mp hplain
  constructor
  · intro hjoined
    cases hcharacters : label.toList with
    | nil =>
      rw [codes, hcharacters, List.map_nil, String.intercalate_nil] at hjoined
      exact absurd (hjoined ▸ rfl) hne
    | cons c others =>
      cases others with
      | nil =>
        refine ⟨c, String.toList_inj.mp (hcharacters.trans (String.toList_singleton c).symm), ?_⟩
        rw [← hjoined, codes, hcharacters, List.map_singleton, String.intercalate_singleton]
      | cons other rest =>
        -- A second code brings a low line with it.
        have hlowLine : '_' ∈ plain.toList := by
          rw [← hjoined, codes, hcharacters, List.map_cons, List.map_cons,
            String.intercalate_cons_cons]
          simp
        exact absurd (halphanum '_' hlowLine) (by decide)
  · rintro ⟨c, rfl, rfl⟩
    simp [codes]

theorem intercalate_codes_injective {first second : String}
    (hsame : "_".intercalate (codes first) = "_".intercalate (codes second)) :
    first = second := by
  have hempty {label : String} (hjoined : "_".intercalate (codes label) = "") : label = "" := by
    cases hcharacters : label.toList with
    | nil => exact String.toList_eq_nil_iff.mp hcharacters
    | cons c others =>
      have hlength := Hexadecimal.le_length_padded 4 c.toNat
      have hnil := congrArg String.toList hjoined
      rw [codes, hcharacters, List.map_cons] at hnil
      cases others with
      | nil =>
        rw [List.map_nil, String.intercalate_singleton] at hnil
        rw [hnil] at hlength
        exact absurd hlength (by decide)
      | cons other rest => simp [String.intercalate_cons_cons] at hnil
  by_cases hfirst : first = ""
  · subst hfirst
    exact (hempty (hsame ▸ rfl)).symm
  · by_cases hsecond : second = ""
    · subst hsecond
      exact hempty hsame
    · refine codes_injective (intercalate_injective rfl ?_ ?_ ?_ ?_ hsame)
      · exact fun hnil ↦ hfirst (codes_eq_nil_iff.mp hnil)
      · exact fun hnil ↦ hsecond (codes_eq_nil_iff.mp hnil)
      · exact fun code hcode ↦ lowLine_notMem_codes hcode
      · exact fun code hcode ↦ lowLine_notMem_codes hcode

theorem SpellsCode.isPlainLabel_label {label code : String} (hspells : SpellsCode label code) :
    isPlainLabel label = false := by
  obtain ⟨c, hc, rfl, -⟩ := hspells
  rw [isPlainLabel_singleton, hc]

theorem SpellsCode.isPlainLabel_code {label code : String} (hspells : SpellsCode label code) :
    isPlainLabel code = true := by
  obtain ⟨c, -, -, rfl⟩ := hspells
  exact isPlainLabel_padded 4 c.toNat (by decide)

/-- The codes of a label that is not plain, joined, are a plain label if that spells the code. -/
theorem intercalate_codes_eq_iff_spellsCode {label plain : String}
    (hlabel : isPlainLabel label = false) (hplain : isPlainLabel plain = true) :
    "_".intercalate (codes label) = plain ↔ SpellsCode label plain := by
  rw [intercalate_codes_eq_iff hplain]
  constructor
  · rintro ⟨c, rfl, hcode⟩
    rw [isPlainLabel_singleton] at hlabel
    exact ⟨c, hlabel, rfl, hcode⟩
  · rintro ⟨c, -, hc, hcode⟩
    exact ⟨c, hc, hcode⟩

/-- Two labels have one name only if they are the same or one spells the code of the other. -/
theorem ofLabel_eq_iff {first second : String} :
    ofLabel first = ofLabel second ↔
      first = second ∨ SpellsCode first second ∨ SpellsCode second first := by
  have hmark (name other : String) : labelMark ++ name = labelMark ++ other ↔ name = other :=
    String.append_right_inj labelMark
  rw [ofLabel, ofLabel, hmark]
  cases hfirst : isPlainLabel first <;> cases hsecond : isPlainLabel second
  · have hnone : ¬ SpellsCode first second ∧ ¬ SpellsCode second first :=
      ⟨fun h ↦ by simp [h.isPlainLabel_code] at hsecond,
        fun h ↦ by simp [h.isPlainLabel_code] at hfirst⟩
    simp only [hnone.1, hnone.2, or_false, Bool.false_eq_true, if_false]
    exact ⟨intercalate_codes_injective, fun h ↦ h ▸ rfl⟩
  · have hne : first ≠ second := fun h ↦ by simp [h, hsecond] at hfirst
    have hback : ¬ SpellsCode second first := fun h ↦ by simp [h.isPlainLabel_code] at hfirst
    simp only [hne, hback, false_or, or_false, Bool.false_eq_true, if_false, if_true]
    exact intercalate_codes_eq_iff_spellsCode hfirst hsecond
  · have hne : first ≠ second := fun h ↦ by simp [h, hsecond] at hfirst
    have hforth : ¬ SpellsCode first second := fun h ↦ by simp [h.isPlainLabel_code] at hsecond
    simp only [hne, hforth, false_or, Bool.false_eq_true, if_false, if_true]
    exact eq_comm.trans (intercalate_codes_eq_iff_spellsCode hsecond hfirst)
  · have hnone : ¬ SpellsCode first second ∧ ¬ SpellsCode second first :=
      ⟨fun h ↦ by simp [h.isPlainLabel_label] at hfirst,
        fun h ↦ by simp [h.isPlainLabel_label] at hsecond⟩
    simp only [hnone.1, hnone.2, or_false, if_true]

/-! ### Codepoints -/

theorem ofCodepoint_injective {first second : ℕ}
    (hsame : ofCodepoint (first : Int) = ofCodepoint (second : Int)) : first = second := by
  -- The third character of the short form is no digit.
  have hforms (short long : ℕ) :
      "uni" ++ Hexadecimal.padded 4 short ≠ "u" ++ Hexadecimal.padded 5 long := by
    intro hsame
    have hcharacters : 'n' :: 'i' :: (Hexadecimal.padded 4 short).toList =
        (Hexadecimal.padded 5 long).toList := by
      simpa using congrArg (fun name ↦ name.toList.tail) hsame
    have hsmall : 'n' ∈ (Hexadecimal.padded 5 long).toList :=
      hcharacters ▸ List.mem_cons_self
    exact (Hexadecimal.isCapital_of_mem_padded hsmall).ne_small rfl
  unfold ofCodepoint at hsame
  split at hsame <;> split at hsame
  · exact Hexadecimal.padded_injective ((String.append_right_inj _).mp hsame)
  · exact absurd hsame (hforms first second)
  · exact absurd hsame.symm (hforms second first)
  · exact Hexadecimal.padded_injective ((String.append_right_inj _).mp hsame)

theorem head?_ofCodepoint (codepoint : Int) :
    (ofCodepoint codepoint).toList.head? = some 'u' := by
  unfold ofCodepoint
  split <;> simp

theorem head?_ofLabel (label : String) : (ofLabel label).toList.head? = some 'l' := by
  simp [ofLabel, labelMark]

end GlyphName

namespace Identity

/-- The name of the glyph of an identity. -/
def name : Identity → String
  | .label text => GlyphName.ofLabel text
  | .codepoint code => GlyphName.ofCodepoint code

/-- Whether two identities are labels one of which spells the code of the other. -/
def SpellsCode (first second : Identity) : Prop :=
  ∃ text other, first = .label text ∧ second = .label other ∧
    (GlyphName.SpellsCode text other ∨ GlyphName.SpellsCode other text)

/-- Whether the codepoint of an identity, if it is one, is not negative. -/
def IsNatural (identity : Identity) : Prop :=
  ∀ code, identity = .codepoint code → 0 ≤ code

/-- No label spells its own code, which a plain label does and the character spelled is not. -/
theorem not_spellsCode_self (identity : Identity) : ¬ SpellsCode identity identity := by
  rintro ⟨text, other, rfl, hother, hspells⟩
  obtain rfl := Identity.label.inj hother
  have hplain : GlyphName.SpellsCode text text → False := fun h ↦
    absurd h.isPlainLabel_code (by simp [h.isPlainLabel_label])
  exact hspells.elim hplain hplain

theorem head?_name (identity : Identity) :
    identity.name.toList.head? = some 'l' ∨ identity.name.toList.head? = some 'u' := by
  cases identity with
  | label text => exact Or.inl (GlyphName.head?_ofLabel text)
  | codepoint code => exact Or.inr (GlyphName.head?_ofCodepoint code)

theorem name_ne_notdef (identity : Identity) : identity.name ≠ GlyphName.notdef := by
  intro hsame
  have hhead := head?_name identity
  rw [hsame] at hhead
  exact absurd hhead (by decide)

/-- Two identities have one name only if they are the same or labels one of which spells the code
of the other. -/
theorem name_eq_iff {first second : Identity} (hfirst : first.IsNatural)
    (hsecond : second.IsNatural) :
    first.name = second.name ↔ first = second ∨ SpellsCode first second := by
  have hforms (text : String) (code : Int) :
      GlyphName.ofLabel text ≠ GlyphName.ofCodepoint code := by
    intro hsame
    have hhead := GlyphName.head?_ofLabel text
    rw [hsame, GlyphName.head?_ofCodepoint] at hhead
    exact absurd hhead (by decide)
  cases first with
  | label text =>
    cases second with
    | label other => simp [name, SpellsCode, GlyphName.ofLabel_eq_iff]
    | codepoint code => simp [name, SpellsCode, hforms]
  | codepoint code =>
    cases second with
    | label other => simp [name, SpellsCode, (hforms _ _).symm]
    | codepoint other =>
      obtain ⟨number, rfl⟩ := Int.eq_ofNat_of_zero_le (hfirst code rfl)
      obtain ⟨count, rfl⟩ := Int.eq_ofNat_of_zero_le (hsecond other rfl)
      constructor
      · exact fun h ↦ Or.inl (congrArg (fun n : ℕ ↦ Identity.codepoint n)
          (GlyphName.ofCodepoint_injective h))
      · rintro (h | ⟨text, -, htext, -⟩)
        · rw [h]
        · exact absurd htext (by simp)

end Identity

/-- The name of a glyph is that of its identity. -/
theorem Glyph.name_eq_identity_name (glyph : Glyph) : glyph.name = glyph.identity.name := by
  unfold Glyph.name Glyph.encoding? Glyph.identity
  cases glyph.isLigature <;> cases glyph.codepoint <;> rfl

theorem Glyph.notdef_notMem_map_name (glyphs : List Glyph) :
    GlyphName.notdef ∉ glyphs.map Glyph.name := by
  intro hmem
  obtain ⟨glyph, -, hname⟩ := List.mem_map.mp hmem
  rw [Glyph.name_eq_identity_name] at hname
  exact Identity.name_ne_notdef glyph.identity hname

end PixelFont
