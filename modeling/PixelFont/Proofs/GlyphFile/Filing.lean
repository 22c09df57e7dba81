import Mathlib.Data.String.Basic
import PixelFont.Proofs.FileTree.Directory
import PixelFont.Proofs.Glyph.Naming
import PixelFont.Proofs.GlyphFile.RoundTrip
import PixelFont.Proofs.Text.Ordering

/-!
Files of single glyphs. A glyph whose header tells what it is comes back from a file of its
canonical text with nothing changed but its source (`Glyph.IsWritten.parse_fileText`). The
conventional name of the file of a character with a short label of letters and digits is a name that
a file can have (`Glyph.isFileName_fileName`), and files of such names sort as the codepoints do
(`Glyph.before_fileName`).
-/

set_option autoImplicit false

namespace PixelFont

open Text

/-! ### Labels of letters and digits -/

namespace GlyphName

/-- A label of letters and digits takes one byte for each. -/
theorem utf8ByteSize_of_isPlainLabel {label : String} (hplain : isPlainLabel label = true) :
    label.utf8ByteSize = label.toList.length := by
  obtain ⟨-, halphanum⟩ := isPlainLabel_eq_true_iff.mp hplain
  rw [← String.utf8Len_toList]
  generalize label.toList = characters at halphanum
  induction characters with
  | nil => rfl
  | cons c characters ih =>
    rw [List.forall_mem_cons] at halphanum
    have hsize : c.utf8Size = 1 :=
      Char.utf8Size_eq_one_iff.mpr (Nat.le_trans (bounds_of_isAlphanum halphanum.1).2 (by decide))
    rw [String.utf8Len_cons, ih halphanum.2, hsize, List.length_cons]

end GlyphName

/-- A label of letters and digits may stand in a header line. -/
theorem isHeaderLabel_of_isPlainLabel {label : String}
    (hplain : GlyphName.isPlainLabel label = true) : IsHeaderLabel label := by
  obtain ⟨hne, halphanum⟩ := GlyphName.isPlainLabel_eq_true_iff.mp hplain
  have hsolid : ∀ c ∈ label.toList, isSpace c = false :=
    fun c hc ↦ isSpace_of_isAlphanum (halphanum c hc)
  have hfield (keyword : List Char) : ¬ HeaderField.StartsField keyword label.toList := by
    rintro ⟨word, space, value, hsplit, -, -⟩
    exact absurd (halphanum ':' (by simp [hsplit])) (by decide)
  exact {
    ne_empty := fun hempty ↦ hne (String.toList_eq_nil_iff.mpr hempty)
    trim_eq := trim_eq_self_iff.mpr
      ⟨fun c hc ↦ hsolid c (List.mem_of_mem_head? hc), endsSolid_of_forall hsolid⟩
    one_line := fun hmem ↦ absurd (halphanum '\n' hmem) (by decide)
    no_weight := hfield _
    no_components := hfield _ }

namespace Glyph

/-! ### Canonical texts -/

/-- A glyph that a file of its canonical text gives back: the header tells what the glyph is, the
raster neither begins nor ends with an empty row and has the text of the grid, and the glyph is
drawn. -/
structure IsWritten (glyph : Glyph) : Prop where
  label : IsHeaderLabel glyph.label
  told : glyph.IsTold
  first_row : ∀ row ∈ glyph.grid.head?, row ≠ []
  last_row : ∀ row ∈ glyph.grid.getLast?, row ≠ []
  rasterLines : glyph.rasterLines = glyph.grid.rowTexts
  derived : glyph.derived = false

variable {glyph : Glyph}

/-- A glyph comes back from its canonical text in a file whose name tells no other codepoint. -/
theorem IsWritten.parse_eq (hwritten : glyph.IsWritten) {path : Option Path}
    (hstem : glyph.kind = .standalone → glyph.codepoint = none →
      GlyphFile.codepoint? (Header.stemOf path) = none) :
    GlyphFile.parse glyph.fileText.toList path = .ok { glyph with source := path } := by
  obtain ⟨hlabel, htold, hfirst, hlast, hlines, hderived⟩ := hwritten
  have hsections := sections_fileText hlabel htold.codepoint_nonneg htold.areWords hfirst hlast
  have hfields := ofFields_headerFields_of_stem htold hstem
  have hraster : (glyph.grid.rowTexts.map String.toList).map String.ofList = glyph.rasterLines := by
    simp [hlines]
  simp only [GlyphFile.parse, Traversal.bind_eq_ok_iff, Header.ofLines, hsections]
  refine ⟨_, ⟨_, ofLines_headerLines hlabel htold, hfields⟩, ?_⟩
  show Except.ok _ = Except.ok _
  rw [htold.map_codepoint, hraster, grid_rowTexts, ← hderived]

/-! ### Conventional names -/

/-- A regular character of the first plane whose label is made of letters and digits, few enough for
the name of a file. -/
structure IsPlain (glyph : Glyph) (codepoint : ℕ) : Prop where
  kind : glyph.kind = .standalone
  components : glyph.components = none
  codepoint_eq : glyph.codepoint = some (codepoint : Int)
  codepoint_lt : codepoint < 0x10000
  weight : glyph.weight = .regular
  label : GlyphName.isPlainLabel glyph.label = true
  length_label_le : glyph.label.toList.length + 13 ≤ FileTree.maxNameSize

namespace IsPlain

variable {codepoint : ℕ} (hplain : glyph.IsPlain codepoint)
include hplain

/-- What the name of the file of a plain character is made of. -/
theorem fileName_eq : glyph.fileName =
    GlyphFile.codepointOpening ++ (Hexadecimal.padded 4 codepoint ++
      ("_" ++ (glyph.label ++ GlyphFile.ending))) := by
  rw [fileName, fileOpening, isLigature_eq_false_iff.mpr hplain.kind, hplain.codepoint_eq,
    hplain.weight]
  simp only [GlyphFile.weightMark, String.append_empty, String.append_assoc]

/-- The name of the file is made of letters, digits, a plus sign, a low line and a point. -/
theorem mem_fileName {c : Char} (hc : c ∈ glyph.fileName.toList) :
    c.isAlphanum = true ∨ c = '+' ∨ c = '_' ∨ c = '.' := by
  have hopening : ∀ c ∈ GlyphFile.codepointOpening.toList, (c.isAlphanum || c == '+') = true :=
    List.all_eq_true.mp (by decide)
  have hending : ∀ c ∈ GlyphFile.ending.toList, (c.isAlphanum || c == '.') = true :=
    List.all_eq_true.mp (by decide)
  simp only [Bool.or_eq_true, beq_iff_eq] at hopening hending
  have hlabel := (GlyphName.isPlainLabel_eq_true_iff.mp hplain.label).2
  rw [hplain.fileName_eq] at hc
  simp only [String.toList_append, List.mem_append] at hc
  rcases hc with hc | hc | hc | hc | hc
  · exact (hopening c hc).imp_right .inl
  · exact .inl (Hexadecimal.isCapital_of_mem_padded hc).isAlphanum
  · exact .inr (.inr (.inl (List.mem_singleton.mp hc)))
  · exact .inl (hlabel c hc)
  · exact (hending c hc).imp_right fun hpoint ↦ .inr (.inr hpoint)

theorem isFileName_fileName : FileTree.IsFileName glyph.fileName := by
  have hbegins : glyph.fileName.toList.head? = some 'U' := by
    rw [hplain.fileName_eq, String.toList_append]
    rfl
  have hne (other : String) (hother : other.toList.head? ≠ some 'U') : glyph.fileName ≠ other :=
    fun hsame ↦ hother (hsame ▸ hbegins)
  have hforeign (c : Char) (hc : ¬ (c.isAlphanum = true ∨ c = '+' ∨ c = '_' ∨ c = '.')) :
      c ∉ glyph.fileName.toList :=
    fun hmem ↦ hc (hplain.mem_fileName hmem)
  exact {
    component := Path.isPathComponent_iff.mpr
      ⟨hne _ (by decide), hne _ (by decide), hforeign _ (by decide)⟩
    ne_parent := hne _ (by decide)
    not_nul := hforeign _ (by decide)
    size_le := by
      have hcode := GlyphName.utf8ByteSize_of_isPlainLabel
        (GlyphName.isPlainLabel_padded 4 codepoint (by decide))
      have hwidth := Hexadecimal.length_padded_le 3 (Nat.le_refl 4) hplain.codepoint_lt
      have hlabel := GlyphName.utf8ByteSize_of_isPlainLabel hplain.label
      have hlength := hplain.length_label_le
      have hopening : GlyphFile.codepointOpening.utf8ByteSize = 2 := rfl
      have hending : GlyphFile.ending.utf8ByteSize = 6 := rfl
      have hlowLine : ("_" : String).utf8ByteSize = 1 := rfl
      rw [hplain.fileName_eq]
      simp only [String.utf8ByteSize_append]
      omega }

/-- The files of plain characters sort as their codepoints do. -/
theorem before_fileName {other : Glyph} {number : ℕ} (hother : other.IsPlain number)
    (hless : codepoint < number) : Text.before glyph.fileName other.fileName = true := by
  rw [hplain.fileName_eq, hother.fileName_eq, before_append_left]
  simp only [before, String.toList_append]
  exact listBefore_padded_append 3 hother.codepoint_lt hless _ _

theorem isTold : glyph.IsTold :=
  .encoded codepoint hplain.kind hplain.components hplain.codepoint_eq (Int.natCast_nonneg _)
    (by have := hplain.codepoint_lt; omega)

end IsPlain

end Glyph

end PixelFont
