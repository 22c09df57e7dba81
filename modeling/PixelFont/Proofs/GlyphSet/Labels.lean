import PixelFont.Proofs.GlyphSet.Patterns

/-!
The patterns of both sets of glyphs are plain. The label of a braille pattern holds the digit of
each dot that the pattern has and no other (`Braille.digitChar_mem_label_iff`), so that two patterns
have two labels. Main statements: `BlockElement.arePlain_patterns`, `Braille.arePlain_patterns`.
-/

set_option autoImplicit false

namespace PixelFont

/-! ### Block elements -/

/-- Block elements are plain on every raster, whatever their eighths make of it. -/
theorem BlockElement.arePlain_patterns (width height : ℕ) (rows : List ℕ) :
    Pattern.ArePlain (patterns width height rows) := by
  have hcodepoints : (patterns width height rows).map Pattern.codepoint =
      [0x2580, 0x2581, 0x2582, 0x2583, 0x2584, 0x2585, 0x2586, 0x2587, 0x2588, 0x258C, 0x2590,
        0x2591, 0x2592, 0x2593] := rfl
  have hlabels : (patterns width height rows).map Pattern.label =
      ["upperhalf", "loweroneeighth", "loweronequarter", "lowerthreeeighths", "lowerhalf",
        "lowerfiveeighths", "lowerthreequarters", "lowerseveneighths", "fullblock", "lefthalf",
        "righthalf", "lightshade", "mediumshade", "darkshade"] := rfl
  have hscalar : ∀ codepoint ∈ (patterns width height rows).map Pattern.codepoint,
      Gate.IsScalar codepoint ∧ codepoint < 0x10000 := by
    rw [hcodepoints]
    unfold Gate.IsScalar
    decide
  have hplain : ∀ label ∈ (patterns width height rows).map Pattern.label,
      GlyphName.isPlainLabel label = true ∧ label.toList.length + 13 ≤ FileTree.maxNameSize := by
    rw [hlabels]
    decide
  exact {
    scalar := fun _ hpattern ↦ (hscalar _ (List.mem_map_of_mem hpattern)).1
    codepoint_lt := fun _ hpattern ↦ (hscalar _ (List.mem_map_of_mem hpattern)).2
    label := fun _ hpattern ↦ (hplain _ (List.mem_map_of_mem hpattern)).1
    length_label_le := fun _ hpattern ↦ (hplain _ (List.mem_map_of_mem hpattern)).2
    increasing := by
      rw [← List.pairwise_map, hcodepoints]
      decide
    nodup_labels := by
      rw [hlabels]
      decide }

/-! ### Braille patterns -/

namespace Braille

/-- The digits of the dots that a pattern has. -/
def dotDigits (offset : Int) : List Char :=
  ((List.range 8).filter (hasDot offset)).map fun dot ↦ Nat.digitChar (dot + 1)

theorem toString_eq_digitChar :
    ∀ dot < 8, (toString (dot + 1)).toList = [Nat.digitChar (dot + 1)] := by
  decide

theorem digitChar_injective :
    ∀ first < 8, ∀ second < 8, Nat.digitChar (first + 1) = Nat.digitChar (second + 1) →
      first = second := by
  decide

/-- The label of a pattern with dots ends in their digits. -/
theorem toList_label {offset : Int} (hoffset : offset ≠ 0) :
    (label offset).toList = "braille".toList ++ dotDigits offset := by
  have hdigits : ((List.range 8).filter (hasDot offset)).flatMap
      (fun (dot : ℕ) ↦ (toString (dot + 1)).toList) = dotDigits offset := by
    rw [dotDigits, List.map_eq_flatMap]
    refine List.flatMap_congr fun dot hdot ↦ toString_eq_digitChar dot ?_
    exact List.mem_range.mp (List.mem_of_mem_filter hdot)
  rw [label, if_neg hoffset, String.toList_append, String.toList_join, List.flatMap_map, hdigits]

theorem hasDot_natCast (offset dot : ℕ) : hasDot offset dot = offset.testBit dot := by
  rw [Bool.eq_iff_iff, hasDot, Nat.testBit_eq_decide_div_mod_eq, beq_iff_eq, decide_eq_true_eq,
    Nat.pow_eq]
  exact_mod_cast Iff.rfl

/-- The label of a pattern holds the digits of the dots that the pattern has. -/
theorem digitChar_mem_label_iff (offset : ℕ) {dot : ℕ} (hdot : dot < 8) :
    Nat.digitChar (dot + 1) ∈ (label offset).toList ↔ offset.testBit dot = true := by
  by_cases hoffset : offset = 0
  · have hblank : ∀ dot < 8, Nat.digitChar (dot + 1) ∉ "brailleblank".toList := by decide
    subst hoffset
    rw [Nat.zero_testBit]
    exact iff_of_false (hblank dot hdot) Bool.false_ne_true
  · have hopening : ∀ dot < 8, Nat.digitChar (dot + 1) ∉ "braille".toList := by decide
    rw [toList_label (Int.natCast_ne_zero.mpr hoffset), List.mem_append,
      or_iff_right (hopening dot hdot), dotDigits, List.mem_map]
    constructor
    · rintro ⟨other, hother, hsame⟩
      obtain ⟨hrange, hhas⟩ := List.mem_filter.mp hother
      rw [← digitChar_injective other (List.mem_range.mp hrange) dot hdot hsame, ← hasDot_natCast,
        hhas]
    · intro hhas
      rw [← hasDot_natCast] at hhas
      exact ⟨dot, List.mem_filter.mpr ⟨List.mem_range.mpr hdot, hhas⟩, rfl⟩

/-- Two patterns have two labels. -/
theorem label_injective {first second : ℕ} (hfirst : first < count) (hsecond : second < count)
    (hsame : label first = label second) : first = second := by
  refine Nat.eq_of_testBit_eq fun dot ↦ ?_
  by_cases hdot : dot < 8
  · rw [Bool.eq_iff_iff, ← digitChar_mem_label_iff first hdot, hsame,
      digitChar_mem_label_iff second hdot]
  · have hcount : count ≤ 2 ^ dot :=
      Nat.pow_le_pow_right (n := 2) (by decide) (Nat.le_of_not_lt hdot)
    rw [Nat.testBit_lt_two_pow (Nat.lt_of_lt_of_le hfirst hcount),
      Nat.testBit_lt_two_pow (Nat.lt_of_lt_of_le hsecond hcount)]

/-- Labels are made of letters and digits, fifteen at most. -/
theorem isAlphanum_of_mem_label {offset : Int} {c : Char} (hc : c ∈ (label offset).toList) :
    c.isAlphanum = true := by
  by_cases hoffset : offset = 0
  · have hblank : ∀ c ∈ "brailleblank".toList, c.isAlphanum = true :=
      List.all_eq_true.mp (by decide)
    subst hoffset
    exact hblank c hc
  · have hopening : ∀ c ∈ "braille".toList, c.isAlphanum = true :=
      List.all_eq_true.mp (by decide)
    have hdigit : ∀ dot < 8, (Nat.digitChar (dot + 1)).isAlphanum = true := by decide
    rw [toList_label hoffset, List.mem_append, dotDigits, List.mem_map] at hc
    rcases hc with hc | ⟨dot, hdot, rfl⟩
    · exact hopening c hc
    · exact hdigit dot (List.mem_range.mp (List.mem_of_mem_filter hdot))

theorem length_label_le (offset : Int) : (label offset).toList.length ≤ 15 := by
  by_cases hoffset : offset = 0
  · subst hoffset
    decide
  · have hdots : ((List.range 8).filter (hasDot offset)).length ≤ 8 := List.length_filter_le _ _
    rw [toList_label hoffset, List.length_append, dotDigits, List.length_map]
    exact Nat.add_le_add_left hdots 7

theorem label_ne_empty (offset : Int) : (label offset).toList ≠ [] := by
  by_cases hoffset : offset = 0
  · subst hoffset
    decide
  · rw [toList_label hoffset]
    exact List.append_ne_nil_of_left_ne_nil (by decide) _

theorem codepoint_pattern (offset : ℕ) : (pattern offset).codepoint = 0x2800 + offset :=
  Int.natCast_add base offset

/-- Braille patterns are plain. -/
theorem arePlain_patterns : Pattern.ArePlain ((List.range count).map pattern) where
  scalar := List.forall_mem_map.mpr fun offset hoffset ↦ by
    have hless : offset < 256 := List.mem_range.mp hoffset
    rw [Gate.IsScalar, codepoint_pattern]
    omega
  codepoint_lt := List.forall_mem_map.mpr fun offset hoffset ↦ by
    have hless : offset < 256 := List.mem_range.mp hoffset
    rw [codepoint_pattern]
    omega
  label := List.forall_mem_map.mpr fun offset _ ↦ GlyphName.isPlainLabel_eq_true_iff.mpr
    ⟨label_ne_empty offset, fun _ hc ↦ isAlphanum_of_mem_label hc⟩
  length_label_le := List.forall_mem_map.mpr fun offset _ ↦
    Nat.le_trans (Nat.add_le_add_right (length_label_le offset) 13) (by decide)
  increasing := by
    refine List.pairwise_map.mpr (List.pairwise_lt_range.imp fun hless ↦ ?_)
    rw [codepoint_pattern, codepoint_pattern]
    omega
  nodup_labels := by
    rw [List.map_map]
    refine List.nodup_range.map_on fun first hfirst second hsecond hsame ↦ ?_
    exact label_injective (List.mem_range.mp hfirst) (List.mem_range.mp hsecond) hsame

end Braille

end PixelFont
