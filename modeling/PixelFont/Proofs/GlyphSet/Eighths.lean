import Mathlib.Algebra.Order.Ring.Int
import PixelFont.Proofs.GlyphSet.Labels
import PixelFont.Proofs.Number.Order
import PixelFont.Proofs.Traversal

/-!
The lower eighths of a raster. Eighths are counted in floating point, which is exact as long as
their odd part times the height has at most 53 binary digits (`BlockElement.eighths_eq_ok`). Beyond
that the rounded products may lie rows off, but rounding keeps their order and does not take them
beyond the height (`BlockElement.eighths_mono`, `BlockElement.eighths_le`). So the block of some
eighths is made of complete rows at the bottom, more eighths fill more, a taller raster does not
fill fewer, and with eighths counted exactly the rows are as many as come nearest to them. Main
statement: `BlockElement.lowerEighths_nearest`.
-/

set_option autoImplicit false

namespace PixelFont

open Number

/-- Among glyphs there are some of a label, and all of them have the given raster. -/
structure IsRasterOf (glyphs : List Glyph) (label : String) (raster : Grid) : Prop where
  exists_glyph : ∃ glyph ∈ glyphs, glyph.label = label
  grid_eq : ∀ glyph ∈ glyphs, glyph.label = label → glyph.grid = raster

/-- Every filled cell of one grid is filled in another one. -/
def Grid.LiesWithin (grid other : Grid) : Prop :=
  ∀ row column, grid.isFilled row column = true → other.isFilled row column = true

/-- A raster of which some rows at the bottom are filled and the others empty. -/
def Grid.bottomRows (width height count : ℕ) : Grid :=
  List.replicate (height - count) (List.replicate width false) ++
    List.replicate count (List.replicate width true)

/-! ### Rasters of patterns -/

/-- A pattern is drawn under its label where no other has it. -/
theorem Pattern.isRasterOf {patterns : List Pattern} (hlabels : (patterns.map Pattern.label).Nodup)
    (width height : ℕ) {pattern : Pattern} (hpattern : pattern ∈ patterns) :
    IsRasterOf (patterns.map (Pattern.glyph width height)) pattern.label
      (Grid.ofFunction width height pattern.isFilled) where
  exists_glyph := ⟨_, List.mem_map_of_mem hpattern, rfl⟩
  grid_eq := by
    intro glyph hglyph hlabel
    obtain ⟨other, hother, rfl⟩ := List.mem_map.mp hglyph
    rw [List.inj_on_of_nodup_map hlabels hother hpattern hlabel]
    rfl

namespace Grid

theorem ofFunction_eq_bottomRows {width height count : ℕ} (hcount : count ≤ height) :
    (ofFunction width height fun row _ ↦ decide (height - count ≤ row)) =
      bottomRows width height count := by
  refine List.ext_getElem (by simp [bottomRows, hcount]) fun row _ _ ↦ ?_
  simp only [ofFunction, bottomRows, List.getElem_map, List.getElem_range, List.map_const',
    List.length_range, List.getElem_append, List.length_replicate, List.getElem_replicate]
  split
  · rw [decide_eq_false (Nat.not_le.mpr ‹_›)]
  · rw [decide_eq_true (Nat.not_lt.mp ‹_›)]

/-- More filled rows at the bottom fill more cells. -/
theorem bottomRows_liesWithin {width height first second : ℕ} (hle : first ≤ second)
    (hsecond : second ≤ height) :
    (bottomRows width height first).LiesWithin (bottomRows width height second) := by
  intro row column
  rw [← ofFunction_eq_bottomRows (hle.trans hsecond), ← ofFunction_eq_bottomRows hsecond,
    isFilled_ofFunction, isFilled_ofFunction]
  simp only [Bool.and_eq_true, decide_eq_true_eq]
  omega

end Grid

namespace BlockElement

/-! ### Counting eighths exactly -/

/-- The number of rows of some eighths of a height, counted exactly. -/
def exactEighths (count height : ℕ) : ℕ :=
  roundHalfEven (count * height) 8

/-- The glyphs of the block elements for a raster whose eighths are counted exactly. -/
def exactGlyphs (raster : RasterSize) : List Glyph :=
  (patterns raster.width raster.height
    ((List.range' 1 7).map fun count ↦ exactEighths count raster.height)).map
      (Pattern.glyph raster.width raster.height)

theorem exists_toFraction?_eighth_eq {height : ℕ} (hsmall : height < 2 ^ 53) :
    ∃ power, (eighth height).toFraction? = some ⟨false, height * 2 ^ power, 2 ^ (power + 3)⟩ := by
  have hvalue := Binary64.exists_toFraction?_mul_two_pow false hsmall 0 (show 3 ≤ 1022 by decide)
  rwa [pow_zero, Nat.mul_one] at hvalue

/-- Floating point counts eighths exactly as long as the odd part of their number, times the height,
has at most 53 binary digits. -/
theorem eighths_eq_ok {odd twos height : ℕ} (hodd : 0 < odd) (htwos : twos ≤ 3)
    (hsmall : odd * height < 2 ^ 53) (hcount : odd * 2 ^ twos < 2 ^ 53) :
    eighths (odd * 2 ^ twos) height = .ok (exactEighths (odd * 2 ^ twos) height) := by
  have hheight : height < 2 ^ 53 := (Nat.le_mul_of_pos_left height hodd).trans_lt hsmall
  obtain ⟨shift, hpart⟩ := exists_toFraction?_eighth_eq hheight
  obtain ⟨factor, power, hfactor, hwhole⟩ := Binary64.toFraction?_ofInt
    (show ((odd * 2 ^ twos : ℕ) : ℤ).natAbs < 2 ^ 53 from hcount)
  have hproduct : factor.mul ⟨false, height * 2 ^ shift, 2 ^ (shift + 3)⟩ =
      ⟨false, odd * height * 2 ^ (power + shift + twos),
        2 ^ (power + shift + twos + (3 - twos))⟩ := by
    have hexponent : power + shift + twos + (3 - twos) = power + (shift + 3) := by omega
    rw [Fraction.mul, hwhole.negative, hwhole.numerator, hwhole.denominator, hexponent,
      Int.natAbs_natCast, decide_eq_false (Int.not_lt.mpr (Int.natCast_nonneg _))]
    congr 1 <;> ring
  obtain ⟨other, htotal⟩ := Binary64.exists_toFraction?_mul_two_pow false hsmall
    (power + shift + twos) (show 3 - twos ≤ 1022 by omega)
  have hmul : ((Binary64.ofInt ((odd * 2 ^ twos : ℕ) : ℤ)).mul (eighth height)).toFraction? =
      some ⟨false, odd * height * 2 ^ other, 2 ^ (other + (3 - twos))⟩ := by
    rw [Binary64.mul, Binary64.lift, hfactor, hpart]
    dsimp only
    rw [hproduct, htotal]
  have hreduced : roundHalfEven (odd * height * 2 ^ other) (2 ^ (other + (3 - twos))) =
      exactEighths (odd * 2 ^ twos) height := by
    have hdenominator : 2 ^ (3 - twos) * 2 ^ twos = 8 := by
      rw [← pow_add, Nat.sub_add_cancel htwos]
      rfl
    have hnumerator : odd * 2 ^ twos * height = odd * height * 2 ^ twos := Nat.mul_right_comm _ _ _
    rw [Nat.add_comm other, pow_add, roundHalfEven_mul_mul _ _ (by positivity), exactEighths,
      hnumerator, ← hdenominator, roundHalfEven_mul_mul _ _ (by positivity)]
  rw [eighths, hpart, hmul]
  exact congrArg Except.ok hreduced

/-! ### Counting eighths in floating point -/

/-- Rows are counted by rounding an eighth of the height, then some of these eighths, and at last
the number of rows in them. -/
theorem exists_nearest_of_eighths {count height rows : ℕ} (hcount : count < 2 ^ 53)
    (hrows : eighths count height = .ok rows) :
    ∃ total value : Fraction, total.denominator ≠ 0 ∧ value.denominator ≠ 0 ∧
      total.size = count * (⟨false, height, 8⟩ : Fraction).nearest ∧ value.size = total.nearest ∧
      rows = roundHalfEven value.numerator value.denominator := by
  obtain ⟨factor, power, hfactor, hwhole⟩ := Binary64.toFraction?_ofInt
    (show (count : ℤ).natAbs < 2 ^ 53 from hcount)
  cases hpart : (eighth height).toFraction? with
  | none =>
    rw [eighths, hpart] at hrows
    cases hrows
  | some part =>
    obtain ⟨hpartDenominator, hpartSize⟩ := Binary64.size_toFraction?_ofFraction hpart
    have hmul : (Binary64.ofInt count).mul (eighth height) =
        Binary64.ofFraction (factor.mul part) := by
      rw [Binary64.mul, Binary64.lift, hfactor, hpart]
    rw [eighths, hpart, hmul] at hrows
    cases hvalue : (Binary64.ofFraction (factor.mul part)).toFraction? with
    | none =>
      rw [hvalue] at hrows
      cases hrows
    | some value =>
      obtain ⟨hvalueDenominator, hvalueSize⟩ := Binary64.size_toFraction?_ofFraction hvalue
      rw [hvalue] at hrows
      refine ⟨factor.mul part, value, ?_, hvalueDenominator, ?_, hvalueSize,
        (Except.ok.inj hrows).symm⟩
      · exact Nat.mul_ne_zero (by rw [hwhole.denominator]; positivity) hpartDenominator
      · rw [Fraction.size_mul, hwhole.size, Int.natAbs_natCast, hpartSize]

/-- More eighths of a greater height are not counted as fewer rows. -/
theorem eighths_mono {count other height taller rows more : ℕ} (hcount : count ≤ other)
    (hother : other < 2 ^ 53) (hheight : height ≤ taller)
    (hrows : eighths count height = .ok rows) (hmore : eighths other taller = .ok more) :
    rows ≤ more := by
  obtain ⟨first, value, hfirst, hvalue, hfirstSize, hvalueSize, rfl⟩ :=
    exists_nearest_of_eighths (hcount.trans_lt hother) hrows
  obtain ⟨second, another, hsecond, hanother, hsecondSize, hanotherSize, rfl⟩ :=
    exists_nearest_of_eighths hother hmore
  have hparts : (⟨false, height, 8⟩ : Fraction).nearest ≤ (⟨false, taller, 8⟩ : Fraction).nearest :=
    Fraction.nearest_mono (Nat.succ_ne_zero 7) (Nat.succ_ne_zero 7)
      (div_le_div_of_nonneg_right (by exact_mod_cast hheight) (by positivity))
  have htotals : first.size ≤ second.size := by
    rw [hfirstSize, hsecondSize]
    exact mul_le_mul (by exact_mod_cast hcount) hparts (Fraction.nearest_nonneg _) (by positivity)
  refine roundHalfEven_mono_of_div_le (Nat.pos_of_ne_zero hvalue) (Nat.pos_of_ne_zero hanother) ?_
  calc value.size = first.nearest := hvalueSize
    _ ≤ second.nearest := Fraction.nearest_mono hfirst hsecond htotals
    _ = another.size := hanotherSize.symm

/-- Up to seven eighths of a height are not counted as more rows than there are. -/
theorem eighths_le {count height rows : ℕ} (hcount : count ≤ 7)
    (hrows : eighths count height = .ok rows) : rows ≤ height := by
  obtain ⟨total, value, htotal, hvalue, htotalSize, hvalueSize, rfl⟩ :=
    exists_nearest_of_eighths (hcount.trans_lt (by decide)) hrows
  have hsize : value.size ≤ height := by
    rcases Nat.eq_zero_or_pos height with rfl | hpositive
    · have hnone : total.size = 0 := by
        rw [htotalSize, Fraction.nearest_eq_zero (Nat.succ_ne_zero 7) (by simp [Fraction.size]),
          mul_zero]
      rw [hvalueSize, Fraction.nearest_eq_zero htotal hnone, Nat.cast_zero]
    · have hone : (1 : ℚ) ≤ height := by exact_mod_cast hpositive
      have hleast : (2 : ℚ) ^ (Binary64.leastExponent - 1) ≤ 1 / 1024 := by
        calc (2 : ℚ) ^ (Binary64.leastExponent - 1) ≤ 2 ^ (-10 : ℤ) :=
              zpow_le_zpow_right₀ one_le_two (by decide)
          _ = 1 / 1024 := by norm_num
      have hpart : (⟨false, height, 8⟩ : Fraction).nearest ≤
          (height : ℚ) / 8 + (height : ℚ) / 8 / 2 ^ 53 + 2 ^ (Binary64.leastExponent - 1) :=
        Fraction.nearest_le (x := ⟨false, height, 8⟩) (Nat.succ_ne_zero 7)
      have hsum : total.size ≤ 7 * (⟨false, height, 8⟩ : Fraction).nearest := by
        rw [htotalSize]
        exact mul_le_mul_of_nonneg_right (by exact_mod_cast hcount) (Fraction.nearest_nonneg _)
      have hwhole := Fraction.nearest_le htotal
      -- Two roundings take up less than the eighth that is left over.
      rw [hvalueSize]
      norm_num at hpart hwhole
      linarith
  exact roundHalfEven_le_of_div_le (Nat.pos_of_ne_zero hvalue) hsize

/-- The rows of some eighths are what is counted for them. -/
theorem eighths_of_lowerRows {height : ℕ} {rows : List ℕ} (hrows : lowerRows height = .ok rows)
    {count : ℕ} (hpos : 0 < count) (hle : count ≤ 7) :
    eighths count height = .ok (rows.getD (count - 1) 0) := by
  have hplace := congrArg (·[count - 1]?) (Traversal.map_ok_of_mapM_eq_ok hrows)
  simp only [List.getElem?_map] at hplace
  rw [List.getElem?_range' (by omega), Nat.one_mul, Nat.add_sub_cancel' hpos, Option.map_some,
    Option.map_eq_some_iff] at hplace
  obtain ⟨number, hnumber, hcounted⟩ := hplace
  rw [List.getD_eq_getElem?_getD, hnumber, ← hcounted]
  rfl

/-! ### The blocks of the lower eighths -/

/-- The labels of the blocks of one to seven eighths. -/
def lowerLabels : List (ℕ × String) :=
  [(1, "loweroneeighth"), (2, "loweronequarter"), (3, "lowerthreeeighths"), (4, "lowerhalf"),
    (5, "lowerfiveeighths"), (6, "lowerthreequarters"), (7, "lowerseveneighths")]

theorem le_seven_of_mem_lowerLabels {count : ℕ} {label : String}
    (hlabel : (count, label) ∈ lowerLabels) : 0 < count ∧ count ≤ 7 := by
  have hrange : ∀ entry ∈ lowerLabels, 0 < entry.1 ∧ entry.1 ≤ 7 := by decide
  exact hrange _ hlabel

/-- Each pattern is drawn under its label. -/
theorem isRasterOf_of_getElem? {width height : ℕ} {rows : List ℕ} {index : ℕ} {pattern : Pattern}
    (hpattern : (patterns width height rows)[index]? = some pattern) :
    IsRasterOf ((patterns width height rows).map (Pattern.glyph width height)) pattern.label
      (Grid.ofFunction width height pattern.isFilled) :=
  Pattern.isRasterOf (arePlain_patterns width height rows).nodup_labels width height
    (List.mem_of_getElem? hpattern)

/-- The block of some eighths fills the rows at the bottom that are counted for it. -/
theorem isRasterOf_lower (width height : ℕ) (rows : List ℕ) {count : ℕ} {label : String}
    (hlabel : (count, label) ∈ lowerLabels) (hrows : rows.getD (count - 1) 0 ≤ height) :
    IsRasterOf ((patterns width height rows).map (Pattern.glyph width height)) label
      (Grid.bottomRows width height (rows.getD (count - 1) 0)) := by
  have hplaces : ∀ entry ∈ lowerLabels, (patterns width height rows)[entry.1]? =
      some ⟨0x2580 + entry.1, entry.2, fun row _ ↦
        decide (height - rows.getD (entry.1 - 1) 0 ≤ row)⟩ := by
    simp only [lowerLabels, List.forall_mem_cons]
    exact ⟨rfl, rfl, rfl, rfl, rfl, rfl, rfl, nofun⟩
  rw [← Grid.ofFunction_eq_bottomRows hrows]
  exact isRasterOf_of_getElem? (hplaces _ hlabel)

theorem isRasterOf_fullblock (width height : ℕ) (rows : List ℕ) :
    IsRasterOf ((patterns width height rows).map (Pattern.glyph width height)) "fullblock"
      (Grid.bottomRows width height height) := by
  have hpattern : (patterns width height rows)[8]? = some ⟨0x2588, "fullblock", fun _ _ ↦ true⟩ :=
    rfl
  have hfilled : (fun _ _ ↦ true : ℕ → ℕ → Bool) =
      fun row _ ↦ decide (height - height ≤ row) := by
    simp
  rw [← Grid.ofFunction_eq_bottomRows (Nat.le_refl height), ← hfilled]
  exact isRasterOf_of_getElem? hpattern

theorem getD_map_exactEighths (height : ℕ) {count : ℕ} (hpos : 0 < count) (hle : count ≤ 7) :
    ((List.range' 1 7).map fun count ↦ exactEighths count height).getD (count - 1) 0 =
      exactEighths count height := by
  rw [List.getD_eq_getElem?_getD, List.getElem?_map, List.getElem?_range' (by omega), Nat.one_mul,
    Nat.add_sub_cancel' hpos]
  rfl

theorem exactEighths_le {count : ℕ} (hle : count ≤ 7) (height : ℕ) :
    exactEighths count height ≤ height := by
  refine roundHalfEven_le_of_le_mul (by decide) ?_
  rw [Nat.mul_comm height]
  exact Nat.mul_le_mul_right height (hle.trans (by decide))

/-- More eighths of a greater height are not fewer rows. -/
theorem exactEighths_mono {count other height taller : ℕ} (hcount : count ≤ other)
    (hheight : height ≤ taller) : exactEighths count height ≤ exactEighths other taller :=
  roundHalfEven_mono (by decide) (Nat.mul_le_mul hcount hheight)

/-- The rows counted come nearest to the eighths, and are even in number where as many others come
as near. -/
theorem abs_exactEighths_sub_le (count height : ℕ) :
    |8 * (exactEighths count height : ℤ) - count * height| ≤ 4 ∧
      (|8 * (exactEighths count height : ℤ) - count * height| = 4 →
        Even (exactEighths count height)) := by
  have hnearest := isNearestEven_roundHalfEven (count * height) (show 0 < 8 by decide)
  rw [← exactEighths] at hnearest
  have hbelow := hnearest.le_value
  have habove := hnearest.value_le
  have heven := hnearest.even_of_half
  rw [← Nat.cast_mul, abs_le, Nat.even_iff]
  refine ⟨by omega, fun htie ↦ heven ?_⟩
  rcases abs_eq (by decide) |>.mp htie with htie | htie <;> omega

/-- The glyphs are drawn with the eighths counted exactly unless seven times the height has more
than 53 binary digits. -/
theorem glyphs_eq_exactGlyphs {raster : RasterSize} (hsmall : 7 * raster.height < 2 ^ 53) :
    glyphs raster = .ok (exactGlyphs raster) := by
  have hrows : lowerRows raster.height =
      .ok ((List.range' 1 7).map fun count ↦ exactEighths count raster.height) := by
    refine Traversal.mapM_eq_ok fun count hcount ↦ ?_
    have hparts : ∀ count ∈ List.range' 1 7, ∃ odd ≤ 7, 0 < odd ∧ ∃ twos ≤ 3,
        count = odd * 2 ^ twos := by
      decide
    obtain ⟨odd, hodd, hpos, twos, htwos, rfl⟩ := hparts count hcount
    have hbelow : odd * 2 ^ twos < 8 := (List.mem_range'_1.mp hcount).2
    exact eighths_eq_ok hpos htwos ((Nat.mul_le_mul_right _ hodd).trans_lt hsmall)
      (hbelow.trans (by decide))
  rw [glyphs, hrows]
  rfl

/-- Among glyphs the blocks of one to seven lower eighths are made of complete rows at the bottom
of a raster, as many as are given for each of them. A block fills no cell that those of more eighths
or the full block leave empty. -/
structure AreLowerBlocks (raster : RasterSize) (glyphs : List Glyph) (rows : ℕ → ℕ) : Prop where
  fullblock : IsRasterOf glyphs "fullblock"
    (Grid.bottomRows raster.width raster.height raster.height)
  isRasterOf : ∀ count label, (count, label) ∈ lowerLabels →
    IsRasterOf glyphs label (Grid.bottomRows raster.width raster.height (rows count))
  rows_le : ∀ count label, (count, label) ∈ lowerLabels → rows count ≤ raster.height
  liesWithin_fullblock : ∀ count label, (count, label) ∈ lowerLabels →
    (Grid.bottomRows raster.width raster.height (rows count)).LiesWithin
      (Grid.bottomRows raster.width raster.height raster.height)
  liesWithin : ∀ count label other otherLabel, (count, label) ∈ lowerLabels →
    (other, otherLabel) ∈ lowerLabels → count ≤ other →
      (Grid.bottomRows raster.width raster.height (rows count)).LiesWithin
        (Grid.bottomRows raster.width raster.height (rows other))

/-- Rows that are counted in order and are not more than there are make lower blocks. -/
theorem areLowerBlocks_of_counted {raster : RasterSize} {rows : List ℕ} {counted : ℕ → ℕ}
    (hcounted : ∀ count, 0 < count → count ≤ 7 → rows.getD (count - 1) 0 = counted count)
    (hle : ∀ count, 0 < count → count ≤ 7 → counted count ≤ raster.height)
    (hmono : ∀ count other, 0 < count → count ≤ other → other ≤ 7 →
      counted count ≤ counted other) :
    AreLowerBlocks raster ((patterns raster.width raster.height rows).map
      (Pattern.glyph raster.width raster.height)) counted where
  fullblock := isRasterOf_fullblock _ _ _
  isRasterOf := fun count label hlabel ↦ by
    obtain ⟨hpos, hseven⟩ := le_seven_of_mem_lowerLabels hlabel
    rw [← hcounted count hpos hseven]
    exact isRasterOf_lower _ _ rows hlabel (hcounted count hpos hseven ▸ hle count hpos hseven)
  rows_le := fun count label hlabel ↦ by
    obtain ⟨hpos, hseven⟩ := le_seven_of_mem_lowerLabels hlabel
    exact hle count hpos hseven
  liesWithin_fullblock := fun count label hlabel ↦ by
    obtain ⟨hpos, hseven⟩ := le_seven_of_mem_lowerLabels hlabel
    exact Grid.bottomRows_liesWithin (hle count hpos hseven) (Nat.le_refl _)
  liesWithin := fun count label other otherLabel hlabel hother hmore ↦ by
    obtain ⟨hpos, -⟩ := le_seven_of_mem_lowerLabels hlabel
    obtain ⟨hotherPos, hseven⟩ := le_seven_of_mem_lowerLabels hother
    exact Grid.bottomRows_liesWithin (hmono count other hpos hmore hseven)
      (hle other hotherPos hseven)

/-- With the eighths of the height counted exactly, as they are counted unless seven times the
height has more than 53 binary digits, the blocks of the lower eighths are made of as many rows as
come nearest to them, an even number where two do, and of no fewer on a raster that is one row
taller. With the eighths counted in floating point, whatever the height, the blocks are still made
of complete rows in the order of their eighths, and of no fewer on a taller raster. -/
theorem lowerEighths_nearest (raster : RasterSize) :
    AreLowerBlocks raster (exactGlyphs raster) (exactEighths · raster.height) ∧
    (∀ count, |8 * (exactEighths count raster.height : ℤ) - count * raster.height| ≤ 4 ∧
      (|8 * (exactEighths count raster.height : ℤ) - count * raster.height| = 4 →
        Even (exactEighths count raster.height)) ∧
      exactEighths count raster.height ≤ exactEighths count (raster.height + 1)) ∧
    (7 * raster.height < 2 ^ 53 → glyphs raster = .ok (exactGlyphs raster)) ∧
    ∀ drawn, glyphs raster = .ok drawn → ∃ rows : ℕ → ℕ, AreLowerBlocks raster drawn rows ∧
      ∀ count label, (count, label) ∈ lowerLabels →
        eighths count raster.height = .ok (rows count) ∧
        ∀ taller, eighths count (raster.height + 1) = .ok taller → rows count ≤ taller := by
  refine ⟨?_, fun count ↦ ?_, glyphs_eq_exactGlyphs, fun drawn hdrawn ↦ ?_⟩
  · refine areLowerBlocks_of_counted (fun count ↦ getD_map_exactEighths raster.height)
      (fun count _ hseven ↦ exactEighths_le hseven raster.height) fun count other _ hmore _ ↦ ?_
    exact exactEighths_mono hmore (Nat.le_refl _)
  · obtain ⟨hnear, heven⟩ := abs_exactEighths_sub_le count raster.height
    exact ⟨hnear, heven, exactEighths_mono (Nat.le_refl _) (Nat.le_succ _)⟩
  · obtain ⟨rows, hrows, rfl⟩ := Traversal.map_eq_ok_iff.mp hdrawn
    have hcounted (count : ℕ) (hpos : 0 < count) (hseven : count ≤ 7) :=
      eighths_of_lowerRows hrows hpos hseven
    refine ⟨fun count ↦ rows.getD (count - 1) 0, areLowerBlocks_of_counted (fun _ _ _ ↦ rfl)
      (fun count hpos hseven ↦ eighths_le hseven (hcounted count hpos hseven))
      fun count other hpos hmore hseven ↦ ?_, fun count label hlabel ↦ ?_⟩
    · exact eighths_mono hmore (hseven.trans_lt (by decide)) (Nat.le_refl _)
        (hcounted count hpos (hmore.trans hseven)) (hcounted other (hpos.trans_le hmore) hseven)
    · obtain ⟨hpos, hseven⟩ := le_seven_of_mem_lowerLabels hlabel
      refine ⟨hcounted count hpos hseven, fun taller htaller ↦ ?_⟩
      exact eighths_mono (Nat.le_refl _) (hseven.trans_lt (by decide)) (Nat.le_succ _)
        (hcounted count hpos hseven) htaller

/-- Three eighths of four rows are one row and a half, for which two rows are filled. -/
theorem lowerEighths_nearest_fourRows :
    let raster : RasterSize := ⟨1, 4, 3⟩
    7 * raster.height < 2 ^ 53 ∧ (3, "lowerthreeeighths") ∈ lowerLabels ∧
      ∃ drawn, glyphs raster = .ok drawn ∧
        IsRasterOf drawn "lowerthreeeighths" [[false], [false], [true], [true]] := by
  intro raster
  have hsmall : 7 * raster.height < 2 ^ 53 := by decide
  have hlabel : (3, "lowerthreeeighths") ∈ lowerLabels := by decide
  have hrows : Grid.bottomRows 1 4 (exactEighths 3 4) = [[false], [false], [true], [true]] := by
    decide
  obtain ⟨hblocks, -, hdrawn, -⟩ := lowerEighths_nearest raster
  exact ⟨hsmall, hlabel, _, hdrawn hsmall, hrows ▸ hblocks.isRasterOf _ _ hlabel⟩

end BlockElement

end PixelFont
