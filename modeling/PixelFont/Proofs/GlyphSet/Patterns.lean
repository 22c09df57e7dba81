import PixelFont.Proofs.Corpus.Writing
import PixelFont.Proofs.Gate.CharacterSet

/-!
Patterns that are plain: characters of the first plane in the order of their codepoints, with short
labels of letters and digits of which no two are the same. Drawn on a raster they are a set of
characters (`Pattern.ArePlain.isCharacterSet`) and can be filed in one directory
(`Pattern.ArePlain.isFiling`).
-/

set_option autoImplicit false

namespace PixelFont

namespace Pattern

/-- Patterns of characters of the first plane, in the order of their codepoints, with distinct
labels of letters and digits, few enough for the name of a file. -/
structure ArePlain (patterns : List Pattern) : Prop where
  scalar : ∀ pattern ∈ patterns, Gate.IsScalar pattern.codepoint
  codepoint_lt : ∀ pattern ∈ patterns, pattern.codepoint < 0x10000
  label : ∀ pattern ∈ patterns, GlyphName.isPlainLabel pattern.label = true
  length_label_le : ∀ pattern ∈ patterns,
    pattern.label.toList.length + 13 ≤ FileTree.maxNameSize
  increasing : patterns.Pairwise fun first second ↦ first.codepoint < second.codepoint
  nodup_labels : (patterns.map Pattern.label).Nodup

variable {width height : ℕ}

/-- A row of a pattern on a raster of at least one column is not empty. -/
theorem row_ne_nil (hwidth : 0 < width) {pattern : Pattern} {row : List Bool}
    (hrow : row ∈ (pattern.glyph width height).grid) : row ≠ [] := by
  rw [← List.length_pos_iff, Grid.length_of_mem_ofFunction hrow]
  exact hwidth

namespace ArePlain

variable {patterns : List Pattern} (hplain : ArePlain patterns)
include hplain

theorem isPlain {pattern : Pattern} (hpattern : pattern ∈ patterns) :
    (pattern.glyph width height).IsPlain pattern.codepoint.toNat where
  kind := rfl
  components := rfl
  codepoint_eq := congrArg some (Int.toNat_of_nonneg (hplain.scalar pattern hpattern).1).symm
  codepoint_lt := by
    have hless := hplain.codepoint_lt pattern hpattern
    omega
  weight := rfl
  label := hplain.label pattern hpattern
  length_label_le := hplain.length_label_le pattern hpattern

theorem isWritten (hwidth : 0 < width) {pattern : Pattern} (hpattern : pattern ∈ patterns) :
    (pattern.glyph width height).IsWritten where
  label := isHeaderLabel_of_isPlainLabel (hplain.label pattern hpattern)
  told := (hplain.isPlain hpattern).isTold
  first_row := fun _ hrow ↦ row_ne_nil hwidth (List.mem_of_mem_head? hrow)
  last_row := fun _ hrow ↦ row_ne_nil hwidth (List.mem_of_getLast? hrow)
  rasterLines := rfl
  derived := rfl

/-- Plain patterns can be filed in one directory. -/
theorem isFiling (hwidth : 0 < width) (height : ℕ) :
    Corpus.IsFiling (patterns.map (Pattern.glyph width height)) where
  named := List.forall_mem_map.mpr fun _ hpattern ↦ (hplain.isPlain hpattern).isFileName_fileName
  told := List.forall_mem_map.mpr fun _ hpattern _ ↦
    (hplain.isWritten hwidth hpattern).parse_eq fun _ hnone ↦ absurd hnone (Option.some_ne_none _)
  increasing := by
    refine List.pairwise_map.mpr (hplain.increasing.imp_of_mem fun hfirst hsecond hless ↦ ?_)
    refine (hplain.isPlain hfirst).before_fileName (hplain.isPlain hsecond) ?_
    exact (Int.toNat_lt_toNat (Int.lt_of_le_of_lt (hplain.scalar _ hfirst).1 hless)).mpr hless

/-- Plain patterns draw a set of characters. -/
theorem isCharacterSet {raster : RasterSize} (hwidth : 0 < raster.width) :
    Gate.IsCharacterSet raster (patterns.map (Pattern.glyph raster.width raster.height)) :=
  Gate.isCharacterSet_map_glyph hwidth hplain.scalar
    (List.pairwise_map.mpr (hplain.increasing.imp Int.ne_of_lt)) hplain.nodup_labels

end ArePlain

end Pattern

end PixelFont
