import Mathlib.Data.List.Basic
import Mathlib.Data.List.TakeWhile
import PixelFont.GlyphFile.Reader
import PixelFont.Proofs.Path

/-!
What the names of glyph files tell. The forms of stems are stated without the reader: the label that
a stem tells (`IsStemLabel`), which is what the stem ends with, so that it holds no slash
(`slash_notMem_label`), and the codepoint that it tells (`IsStemCodepoint`). The stem of the name of
a glyph's file is an opening, the label and the mark of the weight (`stemOf_fileName`).
-/

set_option autoImplicit false

namespace PixelFont

namespace GlyphFile

theorem stem_append_ending (name : String) : stem (name ++ ending) = name.toList := by
  have hsuffix : ending.toList.isSuffixOf (name.toList ++ ending.toList) = true :=
    List.isSuffixOf_iff_suffix.mpr (List.suffix_append _ _)
  rw [stem, dropEnding, String.toList_append, if_pos hsuffix, List.length_append,
    Nat.add_sub_cancel, List.take_left]

theorem splitCodepoint?_ligatureOpening (text : List Char) :
    splitCodepoint? (ligatureOpening.toList ++ text) = none :=
  rfl

theorem label_ligatureOpening (text : List Char) :
    label (ligatureOpening.toList ++ text) = String.ofList text := by
  rw [label, splitCodepoint?_ligatureOpening]
  dsimp only
  rfl

theorem codepoint?_ligatureOpening (text : List Char) :
    codepoint? (ligatureOpening.toList ++ text) = none := by
  rw [codepoint?, splitCodepoint?_ligatureOpening, Option.bind_none]

/-! ### Forms of stems -/

/-- Whether a stem begins as that of an encoded glyph does: with a numeral and a low line, behind
which the rest stands. -/
def IsEncodedStem (stem numeral rest : List Char) : Prop :=
  stem = codepointOpening.toList ++ numeral ++ '_' :: rest ∧ numeral ≠ [] ∧
    ∀ c ∈ numeral, Text.Hexadecimal.isDigit c = true

/-- The label that a stem tells: what stands behind the opening of an encoded glyph or of another
one, and the whole stem where it has neither. -/
inductive IsStemLabel (stem : List Char) (label : String) : Prop where
  | encoded {numeral : List Char} (hstem : IsEncodedStem stem numeral label.toList)
  | opened (hstem : stem = ligatureOpening.toList ++ label.toList)
  | whole (hencoded : ∀ numeral rest, ¬ IsEncodedStem stem numeral rest)
      (hopened : ∀ rest, stem ≠ ligatureOpening.toList ++ rest) (hstem : stem = label.toList)

/-- The codepoint that a stem tells in four to six digits. -/
def IsStemCodepoint (stem : List Char) (codepoint : ℕ) : Prop :=
  ∃ numeral rest, IsEncodedStem stem numeral rest ∧ 4 ≤ numeral.length ∧ numeral.length ≤ 6 ∧
    codepoint = Text.Hexadecimal.value numeral

theorem dropOpening?_eq_some_iff {opening text rest : List Char} :
    dropOpening? opening text = some rest ↔ text = opening ++ rest := by
  unfold dropOpening?
  constructor
  · intro hrest
    split at hrest
    · rename_i hopening
      obtain ⟨behind, rfl⟩ := List.isPrefixOf_iff_prefix.mp hopening
      rw [List.drop_left] at hrest
      rw [Option.some.inj hrest]
    · exact absurd hrest nofun
  · rintro rfl
    rw [if_pos (List.isPrefixOf_iff_prefix.mpr (List.prefix_append _ _)), List.drop_left]

theorem splitCodepoint?_eq_some_iff {stem numeral rest : List Char} :
    splitCodepoint? stem = some (numeral, rest) ↔ IsEncodedStem stem numeral rest := by
  rw [splitCodepoint?, Option.bind_eq_some_iff]
  constructor
  · rintro ⟨behind, hbehind, hsplit⟩
    split at hsplit
    · rename_i label hlabel
      dsimp only at hsplit
      split at hsplit
      · exact absurd hsplit nofun
      · rename_i hne
        obtain ⟨rfl, rfl⟩ := Prod.mk.inj (Option.some.inj hsplit)
        refine ⟨?_, by simpa using hne, fun c hc ↦ List.mem_takeWhile_imp hc⟩
        rw [dropOpening?_eq_some_iff.mp hbehind, List.append_assoc, ← hlabel,
          List.takeWhile_append_dropWhile]
    · exact absurd hsplit nofun
  · rintro ⟨rfl, hne, hdigits⟩
    refine ⟨numeral ++ '_' :: rest, dropOpening?_eq_some_iff.mpr (List.append_assoc _ _ _), ?_⟩
    have hrest : (numeral ++ '_' :: rest).dropWhile Text.Hexadecimal.isDigit = '_' :: rest := by
      rw [List.dropWhile_append_of_pos hdigits]
      rfl
    have hnumeral : (numeral ++ '_' :: rest).takeWhile Text.Hexadecimal.isDigit = numeral := by
      rw [List.takeWhile_append_of_pos hdigits]
      exact List.append_nil numeral
    simp [hrest, hnumeral, hne]

theorem splitCodepoint?_eq_none_iff {stem : List Char} :
    splitCodepoint? stem = none ↔ ∀ numeral rest, ¬ IsEncodedStem stem numeral rest := by
  simp only [Option.eq_none_iff_forall_ne_some, Prod.forall, ne_eq, splitCodepoint?_eq_some_iff]

theorem dropOpening?_eq_none_iff {opening text : List Char} :
    dropOpening? opening text = none ↔ ∀ rest, text ≠ opening ++ rest := by
  simp only [Option.eq_none_iff_forall_ne_some, ne_eq, dropOpening?_eq_some_iff]

theorem isStemLabel_label (stem : List Char) : IsStemLabel stem (label stem) := by
  unfold label
  cases hsplit : splitCodepoint? stem with
  | some found =>
    refine @IsStemLabel.encoded _ _ found.1 ?_
    rw [String.toList_ofList]
    exact splitCodepoint?_eq_some_iff.mp hsplit
  | none =>
    dsimp only
    cases hrest : dropOpening? ligatureOpening.toList stem with
    | some rest =>
      refine .opened ?_
      rw [String.toList_ofList]
      exact dropOpening?_eq_some_iff.mp hrest
    | none =>
      exact .whole (splitCodepoint?_eq_none_iff.mp hsplit) (dropOpening?_eq_none_iff.mp hrest)
        String.toList_ofList.symm

theorem label_eq_iff {stem : List Char} {text : String} :
    label stem = text ↔ IsStemLabel stem text := by
  constructor
  · rintro rfl
    exact isStemLabel_label stem
  · intro hlabel
    cases hlabel with
    | encoded hstem =>
      rw [label, splitCodepoint?_eq_some_iff.mpr hstem]
      exact String.ofList_toList
    | opened hstem => rw [hstem, label_ligatureOpening, String.ofList_toList]
    | whole hencoded hopened hstem =>
      rw [label, splitCodepoint?_eq_none_iff.mpr hencoded]
      dsimp only
      rw [dropOpening?_eq_none_iff.mpr hopened, Option.getD_none, hstem, String.ofList_toList]

theorem codepoint?_eq_some_iff {stem : List Char} {codepoint : ℕ} :
    codepoint? stem = some codepoint ↔ IsStemCodepoint stem codepoint := by
  rw [codepoint?, Option.bind_eq_some_iff]
  constructor
  · rintro ⟨⟨numeral, rest⟩, hsplit, hvalue⟩
    dsimp only at hvalue
    split at hvalue
    · rename_i hlength
      exact ⟨numeral, rest, splitCodepoint?_eq_some_iff.mp hsplit, hlength.1, hlength.2,
        (Option.some.inj hvalue).symm⟩
    · exact absurd hvalue nofun
  · rintro ⟨numeral, rest, hstem, hleast, hmost, rfl⟩
    exact ⟨(numeral, rest), splitCodepoint?_eq_some_iff.mpr hstem, if_pos ⟨hleast, hmost⟩⟩

/-- The label that a stem tells is what it ends with. -/
theorem toList_label_suffix (stem : List Char) : (label stem).toList <:+ stem := by
  cases isStemLabel_label stem with
  | @encoded numeral hstem =>
    exact ⟨codepointOpening.toList ++ numeral ++ ['_'], by simpa using hstem.1.symm⟩
  | opened hstem => exact ⟨_, hstem.symm⟩
  | whole _ _ hstem => exact hstem ▸ List.suffix_rfl

/-- A label that the name of a file tells holds no slash. -/
theorem slash_notMem_label (path : Option Path) : '/' ∉ (label (Header.stemOf path)).toList := by
  intro hmem
  have hstem : '/' ∈ Header.stemOf path := (toList_label_suffix _).subset hmem
  cases path with
  | none => exact List.not_mem_nil hstem
  | some path =>
    refine path.slash_notMem_name ?_
    rw [Header.stemOf, stem, dropEnding] at hstem
    split at hstem
    · exact List.take_subset _ _ hstem
    · exact hstem

/-- A mark of a weight changes every text, unless the weight is regular. -/
theorem append_weightMark_eq_iff {text : String} {weight : Weight} :
    text ++ weightMark weight = text ↔ weight = .regular := by
  cases weight with
  | regular => exact iff_of_true String.append_empty rfl
  | bold =>
    refine iff_of_false (fun hsame ↦ ?_) nofun
    have hlength := congrArg String.length hsame
    have hmark : (weightMark .bold).length = 5 := rfl
    rw [String.length_append, hmark] at hlength
    omega

end GlyphFile

namespace Glyph

variable {glyph : Glyph}

/-- The stem of the name of a glyph's file is the opening, the label and the mark of the weight. -/
theorem stemOf_fileName (hopening : '/' ∉ glyph.fileOpening.toList)
    (hlabel : '/' ∉ glyph.label.toList) :
    Header.stemOf (some (Path.ofString glyph.fileName)) =
      glyph.fileOpening.toList ++ (glyph.label ++ GlyphFile.weightMark glyph.weight).toList := by
  have hmark : '/' ∉ (GlyphFile.weightMark glyph.weight).toList := by
    cases glyph.weight <;> decide
  have hlength : 6 ≤ glyph.fileName.length := by
    have hending : GlyphFile.ending.length = 6 := rfl
    rw [fileName, String.length_append]
    omega
  have hne (other : String) (hshort : other.length < 6) : glyph.fileName ≠ other := by
    rintro rfl
    omega
  have hcomponent : isPathComponent glyph.fileName = true := by
    refine Path.isPathComponent_iff.mpr ⟨hne _ (by decide), hne _ (by decide), ?_⟩
    simp [fileName, GlyphFile.ending, hopening, hlabel, hmark]
  rw [Header.stemOf, Path.name_ofString hcomponent, fileName, GlyphFile.stem_append_ending,
    String.append_assoc, String.toList_append]

/-- The stem of the name of an unencoded glyph's file is the label and the mark of the weight behind
the opening. -/
theorem stemOf_fileName_of_unencoded (hkind : glyph.kind = .standalone)
    (hcodepoint : glyph.codepoint = none) (hslash : '/' ∉ glyph.label.toList) :
    Header.stemOf (some (Path.ofString glyph.fileName)) =
      GlyphFile.ligatureOpening.toList ++
        (glyph.label ++ GlyphFile.weightMark glyph.weight).toList := by
  have hopening : glyph.fileOpening = GlyphFile.ligatureOpening := by
    rw [fileOpening, isLigature_eq_false_iff.mpr hkind, hcodepoint]
  rw [stemOf_fileName (by rw [hopening]; decide) hslash, hopening]

end Glyph

end PixelFont
