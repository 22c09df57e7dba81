import Mathlib.Data.List.Forall2
import PixelFont.Proofs.Corpus.Reading
import PixelFont.Proofs.GlyphFile.HeaderCollection
import PixelFont.Proofs.Text.Utf8

/-!
What comes of a file that can be read, whatever its bytes. It is unreadable if they are not UTF-8,
it is malformed if the header is refused, and otherwise it gives a glyph; there is no fourth
outcome. A glyph that is given is well formed (`Glyph.IsRecordOf`): in particular a weight is given
by a value that is its name in small letters (`Weight.IsNamedBy.map_toLower`), and the grid has a
cell for each character of the raster. Main statement: `GlyphFile.read_outcome`.
-/

set_option autoImplicit false

namespace PixelFont

open Text

/-! ### Weights -/

/-- A keyword without letters that others are read as is read in small or capital letters alone. -/
theorem HeaderField.map_toLower_of_isKeyword {keyword word : List Char}
    (hletters : ∀ letter ∈ keyword, letter ≠ 'i' ∧ letter ≠ 's' ∧ letter ≠ 'k')
    (hword : isKeyword keyword word = true) : word.map Char.toLower = keyword := by
  induction keyword generalizing word with
  | nil =>
    obtain rfl : word = [] := by simpa [isKeyword, dropKeyword?] using hword
    rfl
  | cons letter keyword ih =>
    rw [List.forall_mem_cons] at hletters
    cases word with
    | nil => simp [isKeyword, dropKeyword?] at hword
    | cons c word =>
      rw [isKeyword, dropKeyword?] at hword
      split at hword
      · rename_i hcase
        have hlower : c.toLower = letter := by simpa [isCaseOf, hletters.1] using hcase
        rw [List.map_cons, hlower, ih hletters.2 hword]
      · exact absurd hword (by simp)

/-- The value that names a weight is the name in small letters. -/
theorem Weight.IsNamedBy.map_toLower {weight : Weight} {value : List Char}
    (hvalue : weight.IsNamedBy value) : value.map Char.toLower = weight.name.toList := by
  refine HeaderField.map_toLower_of_isKeyword ?_ hvalue
  cases weight <;> simp [Weight.name]

/-! ### Glyphs -/

/-- A glyph as it is read from a text in a file of the given path. -/
structure Glyph.IsRecordOf (text : List Char) (path : Path) (glyph : Glyph) : Prop where
  label : glyph.label ≠ ""
  weight : (∃ line ∈ (GlyphFile.sections text).header, ∃ value,
      HeaderField.IsWeightLine line value ∧
        value.map Char.toLower = glyph.weight.name.toList) ∨
    (∀ line ∈ (GlyphFile.sections text).header, ∀ value, ¬ HeaderField.IsWeightLine line value) ∧
      glyph.weight = .regular
  codepoint : ∀ codepoint ∈ glyph.codepoint, 0 ≤ codepoint ∧ codepoint ≤ 0xFFFFFF
  components : ∀ labels ∈ glyph.components, AreWords labels ∧ glyph.kind = .ligature
  derived : glyph.derived = false
  source : glyph.source = some path
  rasterLines : glyph.rasterLines = (GlyphFile.sections text).raster.map String.ofList
  cells : glyph.grid.Forall₂
    (fun row line ↦ row.Forall₂ (fun cell c ↦ cell = true ↔ c = 'X') line.toList)
    glyph.rasterLines

namespace GlyphFile

variable {text : List Char} {path : Path} {glyph : Glyph}

/-- A raster has a cell for each character, which is filled exactly where that is an `X`. -/
theorem forall₂_ofRowText (line : List Char) :
    (Grid.ofRowText line).Forall₂ (fun cell c ↦ cell = true ↔ c = 'X') line := by
  refine List.forall₂_map_left_iff.mpr (List.forall₂_same.mpr fun c _ ↦ ?_)
  rw [beq_iff_eq, Grid.filledChar]

/-- What a text is read as is well formed. -/
theorem isRecordOf_of_parse (hparse : parse text (some path) = .ok glyph) :
    glyph.IsRecordOf text path := by
  obtain ⟨fields, hreading⟩ := exists_isReading hparse
  obtain ⟨hderived, hlines, hsource⟩ := drawn_of_parse hparse
  refine {
    label := ?_
    weight := ?_
    codepoint := hreading.codepoint_mem
    components := fun labels hlabels ↦ ⟨hreading.areWords labels hlabels, ?_⟩
    derived := hderived
    source := hsource
    rasterLines := hlines
    cells := ?_ }
  · by_cases hlabel : fields.label = none
    · exact hreading.named hlabel
    · exact (hreading.isHeaderLabel hlabel).ne_empty
  · refine ((Header.weight_iff hreading.header).mp hreading.weight.symm).imp_left ?_
    rintro ⟨line, hline, value, hweight, hvalue⟩
    exact ⟨line, hline, value, hweight, hvalue.map_toLower⟩
  · by_contra hkind
    have hnone := hreading.components_eq_none (by simpa [Glyph.isLigature] using hkind)
    rw [hnone] at hlabels
    exact absurd hlabels (Option.not_mem_none labels)
  · rw [hreading.grid, hlines, grid, List.forall₂_map_left_iff, List.forall₂_map_right_iff]
    refine List.forall₂_same.mpr fun line _ ↦ ?_
    rw [String.toList_ofList]
    exact forall₂_ofRowText line

/-- A text is read as a glyph exactly if its header is not refused. -/
theorem exists_parse_eq_ok_iff :
    (∃ glyph, parse text (some path) = .ok glyph) ↔
      ¬ Header.IsRefused (sections text).header (Header.stemOf (some path)) := by
  rw [← Header.exists_ofLines_eq_ok_iff]
  simp only [parse, Traversal.bind_eq_ok_iff]
  constructor
  · rintro ⟨glyph, header, hheader, -⟩
    exact ⟨header, hheader⟩
  · rintro ⟨header, hheader⟩
    exact ⟨_, header, hheader, rfl⟩

theorem exists_parse_eq_error_iff :
    (∃ fault, parse text (some path) = .error fault) ↔
      Header.IsRefused (sections text).header (Header.stemOf (some path)) := by
  rw [← not_iff_not, ← exists_parse_eq_ok_iff]
  cases parse text (some path) <;> simp

section Read

variable {tree : FileTree} {bytes : List UInt8} (hread : tree.read path = .ok (.bytes bytes))
include hread

theorem read_eq_unreadable_iff {fault : Utf8.Fault} :
    read tree path = .error (.unreadable path.toText (.encoding fault)) ↔
      Utf8.decode bytes = .error fault := by
  rw [read_eq_ofContent hread, ofContent, decode]
  cases Utf8.decode bytes with
  | error fault => simp
  | ok text => cases hparse : parse text (some path) <;> simp [hparse]

theorem read_eq_malformed_iff {fault : HeaderFault} :
    read tree path = .error (.malformed path.toText fault) ↔
      ∃ text, bytes = Utf8.encode text ∧ parse text (some path) = .error fault := by
  rw [read_eq_ofContent hread, ofContent, decode]
  simp only [← Utf8.decode_eq_ok_iff]
  cases Utf8.decode bytes with
  | error fault => simp
  | ok text => cases hparse : parse text (some path) <;> simp [hparse]

theorem read_eq_ok_iff_of_bytes :
    read tree path = .ok glyph ↔
      ∃ text, bytes = Utf8.encode text ∧ parse text (some path) = .ok glyph := by
  rw [read_eq_ofContent hread, ofContent, decode]
  simp only [← Utf8.decode_eq_ok_iff]
  cases Utf8.decode bytes with
  | error fault => simp
  | ok text => cases hparse : parse text (some path) <;> simp [hparse]

/-- The outcome of reading any bytes: the file is unreadable exactly if they are not UTF-8, it is
malformed exactly if they are a text whose header is refused, and it gives a glyph exactly if they
are a text whose header is not. The glyph that it gives is well formed. -/
theorem read_outcome :
    ((∃ fault, read tree path = .error (.unreadable path.toText (.encoding fault))) ↔
        ∀ text, bytes ≠ Utf8.encode text) ∧
      ((∃ fault, read tree path = .error (.malformed path.toText fault)) ↔
        ∃ text, bytes = Utf8.encode text ∧
          Header.IsRefused (sections text).header (Header.stemOf (some path))) ∧
      ((∃ glyph, read tree path = .ok glyph) ↔
        ∃ text, bytes = Utf8.encode text ∧
          ¬ Header.IsRefused (sections text).header (Header.stemOf (some path))) ∧
      ∀ glyph, read tree path = .ok glyph →
        ∃ text, bytes = Utf8.encode text ∧ glyph.IsRecordOf text path := by
  refine ⟨?_, ?_, ?_, fun glyph hglyph ↦ ?_⟩
  · simp only [read_eq_unreadable_iff hread]
    exact Utf8.exists_decode_eq_error_iff
  · simp only [read_eq_malformed_iff hread]
    rw [exists_comm]
    simp only [exists_and_left, exists_parse_eq_error_iff]
  · simp only [read_eq_ok_iff_of_bytes hread]
    rw [exists_comm]
    simp only [exists_and_left, exists_parse_eq_ok_iff]
  · obtain ⟨text, hbytes, hparse⟩ := (read_eq_ok_iff_of_bytes hread).mp hglyph
    exact ⟨text, hbytes, isRecordOf_of_parse hparse⟩

end Read

/-- A bold ligature whose last row is not finished, and a file that ends inside a character. -/
theorem read_outcome_boldLigature :
    let text := "# Weight: Bold\n# components: f i\n# fi (U+FB01)\nX-X\nX".toList
    let tree := ((FileTree.empty []).add ["fi.glyph"] (.file (.bytes (Utf8.encode text)))).add
      ["e.glyph"] (.file (.bytes [0x58, 0xC3]))
    let ligature : Glyph :=
      { label := "fi", codepoint := some 0xFB01, grid := [[true, false, true], [true]]
        weight := .bold, components := some ["f", "i"], kind := .ligature
        rasterLines := ["X-X", "X"], source := some (Path.ofString "fi.glyph") }
    tree.read (Path.ofString "fi.glyph") = .ok (.bytes (Utf8.encode text)) ∧
      read tree (Path.ofString "fi.glyph") = .ok ligature ∧
      (∃ found, Utf8.encode text = Utf8.encode found ∧
        ligature.IsRecordOf found (Path.ofString "fi.glyph")) ∧
      tree.read (Path.ofString "e.glyph") = .ok (.bytes [0x58, 0xC3]) ∧
      ∀ found, [0x58, 0xC3] ≠ Utf8.encode found := by
  intro text tree ligature
  have hread : tree.read (Path.ofString "fi.glyph") = .ok (.bytes (Utf8.encode text)) := by
    decide +kernel
  have hligature : read tree (Path.ofString "fi.glyph") = .ok ligature := by decide +kernel
  have hbroken : tree.read (Path.ofString "e.glyph") = .ok (.bytes [0x58, 0xC3]) := by
    decide +kernel
  have hfault : read tree (Path.ofString "e.glyph") =
      .error (.unreadable (Path.ofString "e.glyph").toText (.encoding .unexpectedEnd)) := by
    decide +kernel
  exact ⟨hread, hligature, (read_outcome hread).2.2.2 ligature hligature, hbroken,
    (read_outcome hbroken).1.mp ⟨_, hfault⟩⟩

end GlyphFile

end PixelFont
