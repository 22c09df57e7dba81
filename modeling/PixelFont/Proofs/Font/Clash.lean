import Mathlib.Data.List.Basic
import Mathlib.Data.List.Nodup
import PixelFont.Font.Assembly

/-!
When no font is assembled from outlines because two of them clash: exactly if two have one name or
one codepoint, the first clash being told. Where the codepoints are distinct, only a name can be
repeated, and it is told exactly if one is: `assemble_clash_iff`. The glyphs of a font that is
assembled are told apart by their names.
-/

set_option autoImplicit false

namespace PixelFont

namespace Font

/-! ### Fresh items -/

/-- Items that occur neither twice nor among those seen before. -/
def Fresh {α : Type} (seen items : List α) : Prop :=
  items.Nodup ∧ ∀ item ∈ items, item ∉ seen

theorem fresh_nil {α : Type} (seen : List α) : Fresh seen [] :=
  ⟨List.nodup_nil, by simp⟩

theorem fresh_cons_iff {α : Type} {seen items : List α} {item : α} :
    Fresh seen (item :: items) ↔ item ∉ seen ∧ Fresh (item :: seen) items := by
  unfold Fresh
  rw [List.nodup_cons, List.forall_mem_cons]
  constructor
  · rintro ⟨⟨hitem, hitems⟩, hseen, hothers⟩
    refine ⟨hseen, hitems, fun other hother h ↦ ?_⟩
    rcases List.mem_cons.mp h with rfl | h
    · exact hitem hother
    · exact hothers other hother h
  · rintro ⟨hseen, hitems, hothers⟩
    refine ⟨⟨fun h ↦ hothers item h List.mem_cons_self, hitems⟩, hseen, fun other hother h ↦ ?_⟩
    exact hothers other hother (List.mem_cons_of_mem item h)

theorem fresh_of_nodup {α : Type} {seen items : List α} (hitems : items.Nodup)
    (hseen : ∀ item ∈ seen, item ∉ items) : Fresh seen items :=
  ⟨hitems, fun item hitem h ↦ hseen item h hitem⟩

/-! ### Clashes -/

variable {names : List String} {codepoints : List Int} {outlines : List Outline}

/-- No clash is found exactly if the names and the codepoints are fresh. -/
theorem clash?_eq_none_iff :
    clash? names codepoints outlines = none ↔
      Fresh names (outlines.map Outline.name) ∧
        Fresh codepoints (outlines.filterMap Outline.encoding) := by
  induction outlines generalizing names codepoints with
  | nil => exact iff_of_true rfl ⟨fresh_nil names, fresh_nil codepoints⟩
  | cons outline outlines ih =>
    rw [clash?, List.map_cons, fresh_cons_iff]
    by_cases hname : outline.name ∈ names
    · simp [hname]
    · cases hencoding : outline.encoding with
      | none =>
        rw [List.filterMap_cons_none hencoding]
        simp [hname, ih]
      | some codepoint =>
        rw [List.filterMap_cons_some hencoding, fresh_cons_iff]
        by_cases hcodepoint : codepoint ∈ codepoints <;> simp [hname, hcodepoint, ih]

/-- A clash found is a name, or a codepoint, the codepoints not being fresh. -/
theorem eq_repeatedName_or_of_clash? {fault : FontFault}
    (hclash : clash? names codepoints outlines = some fault) :
    (∃ name, fault = .repeatedName name) ∨
      (∃ codepoint, fault = .repeatedCodepoint codepoint) ∧
        ¬ Fresh codepoints (outlines.filterMap Outline.encoding) := by
  induction outlines generalizing names codepoints with
  | nil => simp [clash?] at hclash
  | cons outline outlines ih =>
    rw [clash?] at hclash
    by_cases hname : outline.name ∈ names
    · simp only [List.contains_eq_mem, hname, decide_true, if_true] at hclash
      exact Or.inl ⟨outline.name, (Option.some.inj hclash).symm⟩
    · simp only [List.contains_eq_mem, hname, decide_false, Bool.false_eq_true, if_false] at hclash
      cases hencoding : outline.encoding with
      | none =>
        rw [hencoding] at hclash
        rw [List.filterMap_cons_none hencoding]
        exact ih hclash
      | some codepoint =>
        rw [List.filterMap_cons_some hencoding, fresh_cons_iff]
        simp only [hencoding] at hclash
        by_cases hcodepoint : codepoint ∈ codepoints
        · simp only [hcodepoint, decide_true, if_true] at hclash
          exact Or.inr ⟨⟨codepoint, (Option.some.inj hclash).symm⟩, fun h ↦ h.1 hcodepoint⟩
        · simp only [hcodepoint, decide_false, Bool.false_eq_true, if_false] at hclash
          exact (ih hclash).imp_right fun ⟨hrepeated, hfresh⟩ ↦
            ⟨hrepeated, fun h ↦ hfresh h.2⟩

/-! ### Assembly -/

variable (settings : Settings) {compiled : CompiledFont}

/-- A font is refused for a clash exactly if the outlines have that clash. -/
theorem assemble_eq_error_iff {fault : FontFault} (hfault : fault ≠ .unstorable) :
    assemble settings compiled = .error fault ↔
      clash? [GlyphName.notdef] [] compiled.outlines = some fault := by
  unfold assemble
  cases clash? [GlyphName.notdef] [] compiled.outlines with
  | some found => simp
  | none =>
    have hother : FontFault.unstorable ≠ fault := hfault.symm
    simp only [reduceCtorEq, iff_false]
    split
    · simpa using hother
    · split
      · simp
      · simpa using hother

/-- Where the codepoints are distinct and no outline has the name of the empty glyph, a font is
never refused for a codepoint, and it is refused for a name exactly if two outlines have one. -/
theorem assemble_clash_iff (hnotdef : GlyphName.notdef ∉ compiled.outlines.map Outline.name)
    (hencodings : (compiled.outlines.filterMap Outline.encoding).Nodup) :
    ((∃ name, assemble settings compiled = .error (.repeatedName name)) ↔
        ¬ (compiled.outlines.map Outline.name).Nodup) ∧
      ∀ codepoint, assemble settings compiled ≠ .error (.repeatedCodepoint codepoint) := by
  have hfresh : Fresh [] (compiled.outlines.filterMap Outline.encoding) :=
    fresh_of_nodup hencodings (by simp)
  have hnames : (compiled.outlines.map Outline.name).Nodup ↔
      clash? [GlyphName.notdef] [] compiled.outlines = none := by
    rw [clash?_eq_none_iff]
    exact ⟨fun h ↦ ⟨fresh_of_nodup h (by simpa using hnotdef), hfresh⟩, fun h ↦ h.1.1⟩
  have hcodepoint (codepoint : Int) :
      clash? [GlyphName.notdef] [] compiled.outlines ≠ some (.repeatedCodepoint codepoint) := by
    intro hclash
    rcases eq_repeatedName_or_of_clash? hclash with ⟨name, hname⟩ | ⟨-, hnotFresh⟩
    · exact absurd hname (by simp)
    · exact hnotFresh hfresh
  constructor
  · rw [hnames]
    constructor
    · rintro ⟨name, hname⟩
      rw [(assemble_eq_error_iff settings (by simp)).mp hname]
      exact Option.some_ne_none _
    · intro hclash
      obtain ⟨fault, hfault⟩ := Option.ne_none_iff_exists'.mp hclash
      rcases eq_repeatedName_or_of_clash? hfault with ⟨name, rfl⟩ | ⟨⟨codepoint, rfl⟩, -⟩
      · exact ⟨name, (assemble_eq_error_iff settings (by simp)).mpr hfault⟩
      · exact absurd hfault (hcodepoint codepoint)
  · exact fun codepoint h ↦ hcodepoint codepoint ((assemble_eq_error_iff settings (by simp)).mp h)

/-- A font that is assembled has the glyphs of the outlines, behind the empty glyph. -/
theorem glyphs_of_assemble {font : Font} (hfont : assemble settings compiled = .ok font) :
    clash? [GlyphName.notdef] [] compiled.outlines = none ∧
      font.glyphs = missingGlyph settings :: compiled.outlines.map glyphOf := by
  unfold assemble at hfont
  cases hclash : clash? [GlyphName.notdef] [] compiled.outlines with
  | some fault => simp [hclash] at hfont
  | none =>
    simp only [hclash] at hfont
    split at hfont
    · exact absurd hfont nofun
    · split at hfont
      · rw [← Except.ok.inj hfont]
        exact ⟨rfl, rfl⟩
      · exact absurd hfont nofun

/-- The glyphs of a font that is assembled have names of their own. -/
theorem nodup_names_of_assemble {font : Font} (hfont : assemble settings compiled = .ok font) :
    (font.glyphs.map FontGlyph.name).Nodup := by
  obtain ⟨hclash, hglyphs⟩ := glyphs_of_assemble settings hfont
  obtain ⟨⟨hdistinct, hnotdef⟩, -⟩ := clash?_eq_none_iff.mp hclash
  have hnames : (compiled.outlines.map glyphOf).map FontGlyph.name =
      compiled.outlines.map Outline.name := by
    rw [List.map_map]
    rfl
  rw [hglyphs, List.map_cons, hnames, List.nodup_cons]
  exact ⟨fun hmem ↦ hnotdef _ hmem List.mem_cons_self, hdistinct⟩

/-- In a font that is assembled, the glyph of an outline is the one that has the name of the
outline. -/
theorem glyphOf_of_assemble {font : Font} (hfont : assemble settings compiled = .ok font)
    {outline : Outline} (houtline : outline ∈ compiled.outlines) :
    glyphOf outline ∈ font.glyphs ∧
      ∀ stored ∈ font.glyphs, stored.name = outline.name ↔ stored = glyphOf outline := by
  have hmem : glyphOf outline ∈ font.glyphs := by
    rw [(glyphs_of_assemble settings hfont).2]
    exact List.mem_cons_of_mem _ (List.mem_map_of_mem houtline)
  refine ⟨hmem, fun stored hstored ↦ ⟨fun hname ↦ ?_, congrArg FontGlyph.name⟩⟩
  exact List.inj_on_of_nodup_map (nodup_names_of_assemble settings hfont) hstored hmem hname

end Font

end PixelFont
