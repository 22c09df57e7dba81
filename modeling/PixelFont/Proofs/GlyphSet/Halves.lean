import PixelFont.Proofs.GlyphSet.Eighths
import PixelFont.Proofs.GlyphSet.Filing

/-!
Blocks that make up a full block together. Where the left half ends the right one begins, and where
one of the two dense shades is empty the other is filled. The upper half, however, is half of the
height rounded down and the lower half four eighths of it rounded to the nearest number, the even
one of two: of a height that is one more than a multiple of four, both leave the row in the middle
empty (`BlockElement.not_fitTogether_fiveRows`). Main statement:
`BlockElement.fitTogether_of_glyphs`.
-/

set_option autoImplicit false

namespace PixelFont

open Number

/-- Each cell of a raster is filled in exactly one of two grids. -/
def Grid.Complements (width height : ℕ) (grid other : Grid) : Prop :=
  ∀ row < height, ∀ column < width, grid.isFilled row column = !other.isFilled row column

/-- Of either of two labels there is a glyph, and each cell of the raster is filled in exactly one
of the two. -/
def FitTogether (raster : RasterSize) (glyphs : List Glyph) (first second : String) : Prop :=
  ∃ grid other, IsRasterOf glyphs first grid ∧ IsRasterOf glyphs second other ∧
    grid.Complements raster.width raster.height other

theorem IsRasterOf.unique {glyphs : List Glyph} {label : String} {grid other : Grid}
    (hgrid : IsRasterOf glyphs label grid) (hother : IsRasterOf glyphs label other) :
    grid = other := by
  obtain ⟨glyph, hglyph, hlabel⟩ := hgrid.exists_glyph
  rw [← hgrid.grid_eq glyph hglyph hlabel, hother.grid_eq glyph hglyph hlabel]

theorem IsRasterOf.fitTogether_iff {raster : RasterSize} {glyphs : List Glyph}
    {first second : String} {grid other : Grid} (hfirst : IsRasterOf glyphs first grid)
    (hsecond : IsRasterOf glyphs second other) :
    FitTogether raster glyphs first second ↔
      grid.Complements raster.width raster.height other := by
  refine ⟨?_, fun hcells ↦ ⟨grid, other, hfirst, hsecond, hcells⟩⟩
  rintro ⟨left, right, hgrid, hother, hcells⟩
  rwa [hgrid.unique hfirst, hother.unique hsecond] at hcells

namespace Grid

variable {width height : ℕ}

theorem isFilled_ofFunction_of_lt (cell : ℕ → ℕ → Bool) {row column : ℕ} (hrow : row < height)
    (hcolumn : column < width) :
    (ofFunction width height cell).isFilled row column = cell row column := by
  rw [isFilled_ofFunction, decide_eq_true ⟨hrow, hcolumn⟩, Bool.true_and]

theorem complements_ofFunction {first second : ℕ → ℕ → Bool}
    (hcells : ∀ row column, first row column = !second row column) :
    (ofFunction width height first).Complements width height
      (ofFunction width height second) := by
  intro row hrow column hcolumn
  rw [isFilled_ofFunction_of_lt _ hrow hcolumn, isFilled_ofFunction_of_lt _ hrow hcolumn, hcells]

/-- The rows above the middle and some rows at the bottom make up the whole raster exactly if the
latter begin where the former end. -/
theorem complements_halves_iff (hwidth : 0 < width) (hheight : 0 < height) (count : ℕ) :
    (ofFunction width height fun row _ ↦ row < height / 2).Complements width height
        (ofFunction width height fun row _ ↦ height - count ≤ row) ↔
      height - count = height / 2 := by
  constructor
  · intro hcells
    -- Unless the bounds agree, the row at the lesser one is filled in both grids or in neither.
    have hrow : min (height - count) (height / 2) < height := by omega
    have hcell := hcells _ hrow 0 hwidth
    rw [isFilled_ofFunction_of_lt _ hrow hwidth, isFilled_ofFunction_of_lt _ hrow hwidth,
      ← decide_not, decide_eq_decide] at hcell
    omega
  · intro heq
    refine complements_ofFunction fun row _ ↦ ?_
    rw [heq, ← decide_not, decide_eq_decide, Nat.not_le]

end Grid

namespace BlockElement

/-! ### Sides and shades -/

theorem fitTogether_sides {raster : RasterSize} (rows : List ℕ) :
    FitTogether raster ((patterns raster.width raster.height rows).map
      (Pattern.glyph raster.width raster.height)) "lefthalf" "righthalf" := by
  have hleft : (patterns raster.width raster.height rows)[9]? =
      some ⟨0x258C, "lefthalf", fun _ column ↦ column < raster.width / 2⟩ := rfl
  have hright : (patterns raster.width raster.height rows)[10]? =
      some ⟨0x2590, "righthalf", fun _ column ↦ raster.width / 2 ≤ column⟩ := rfl
  refine ⟨_, _, isRasterOf_of_getElem? hleft, isRasterOf_of_getElem? hright,
    Grid.complements_ofFunction fun _ column ↦ ?_⟩
  rw [← decide_not, decide_eq_decide, Nat.not_le]

theorem fitTogether_shades {raster : RasterSize} (rows : List ℕ) :
    FitTogether raster ((patterns raster.width raster.height rows).map
      (Pattern.glyph raster.width raster.height)) "mediumshade" "darkshade" := by
  have hmedium : (patterns raster.width raster.height rows)[12]? =
      some ⟨0x2592, "mediumshade", fun row column ↦ (row + column) % 2 == 0⟩ := rfl
  have hdark : (patterns raster.width raster.height rows)[13]? =
      some ⟨0x2593, "darkshade", fun row column ↦ (row + column) % 2 != 0⟩ := rfl
  exact ⟨_, _, isRasterOf_of_getElem? hmedium, isRasterOf_of_getElem? hdark,
    Grid.complements_ofFunction fun row column ↦ (Bool.not_not _).symm⟩

theorem lightshade_liesWithin (width height : ℕ) :
    (Grid.ofFunction width height fun row column ↦ (row + column) % 4 == 0).LiesWithin
      (Grid.ofFunction width height fun row column ↦ (row + column) % 2 == 0) := by
  intro row column
  rw [Grid.isFilled_ofFunction, Grid.isFilled_ofFunction, Bool.and_eq_true, Bool.and_eq_true,
    beq_iff_eq, beq_iff_eq]
  exact And.imp_right fun hfour ↦ by omega

/-! ### Upper and lower half -/

theorem exactEighths_four (height : ℕ) : exactEighths 4 height =
    if height % 4 = 1 then height / 2 else height - height / 2 := by
  rw [exactEighths, Nat.mul_comm, show 8 = 2 * 4 from rfl,
    roundHalfEven_mul_mul height 2 (by decide), roundHalfEven_two]

theorem eighths_four {height : ℕ} (hsmall : height < 2 ^ 53) :
    eighths 4 height =
      .ok (if height % 4 = 1 then height / 2 else height - height / 2) := by
  have hodd : 1 * height < 2 ^ 53 := by rwa [Nat.one_mul]
  have hfour := eighths_eq_ok Nat.one_pos (show 2 ≤ 3 by decide) hodd (by decide)
  rwa [show 1 * 2 ^ 2 = 4 from rfl, exactEighths_four] at hfour

/-- On every raster of at least one row and one column, and with any number of rows that floating
point can hold, the left half and the right one fit together, and so do the two dense shades, the
first of which fills what the light one does. The upper half and the lower one fit together exactly
if the rows counted for the latter are those that the former leaves, which is so, as long as the
height has at most 53 binary digits, unless it is one more than a multiple of four. Then both leave
the row in the middle empty; no cell is filled in both. -/
theorem fitTogether_of_glyphs {raster : RasterSize} (hwidth : 0 < raster.width)
    (hheight : 0 < raster.height) :
    (raster.height < 2 ^ 1022 → ∃ drawn, glyphs raster = .ok drawn) ∧
    ∀ drawn, glyphs raster = .ok drawn →
      FitTogether raster drawn "lefthalf" "righthalf" ∧
      FitTogether raster drawn "mediumshade" "darkshade" ∧
      (∃ light medium, IsRasterOf drawn "lightshade" light ∧
        IsRasterOf drawn "mediumshade" medium ∧ light.LiesWithin medium) ∧
      (∃ count, eighths 4 raster.height = .ok count ∧
        (FitTogether raster drawn "upperhalf" "lowerhalf" ↔
          raster.height - count = raster.height / 2)) ∧
      (raster.height < 2 ^ 53 →
        (FitTogether raster drawn "upperhalf" "lowerhalf" ↔ raster.height % 4 ≠ 1) ∧
        ∃ upper lower, IsRasterOf drawn "upperhalf" upper ∧ IsRasterOf drawn "lowerhalf" lower ∧
          ∀ row < raster.height, ∀ column < raster.width,
            ¬(upper.isFilled row column = true ∧ lower.isFilled row column = true) ∧
            (upper.isFilled row column = false ∧ lower.isFilled row column = false ↔
              raster.height % 4 = 1 ∧ row = raster.height / 2)) := by
  refine ⟨fun hfinite ↦ ?_, fun drawn hdrawn ↦ ?_⟩
  · obtain ⟨rows, hrows⟩ := exists_lowerRows hfinite
    exact ⟨_, by rw [glyphs, hrows]; rfl⟩
  obtain ⟨rows, hrows, rfl⟩ := Traversal.map_eq_ok_iff.mp hdrawn
  have hupper : (patterns raster.width raster.height rows)[0]? =
      some ⟨0x2580, "upperhalf", fun row _ ↦ row < raster.height / 2⟩ := rfl
  have hlower : (patterns raster.width raster.height rows)[4]? =
      some ⟨0x2584, "lowerhalf", fun row _ ↦ raster.height - rows.getD 3 0 ≤ row⟩ := rfl
  have hlight : (patterns raster.width raster.height rows)[11]? =
      some ⟨0x2591, "lightshade", fun row column ↦ (row + column) % 4 == 0⟩ := rfl
  have hmedium : (patterns raster.width raster.height rows)[12]? =
      some ⟨0x2592, "mediumshade", fun row column ↦ (row + column) % 2 == 0⟩ := rfl
  have hcount := eighths_of_lowerRows hrows (show 0 < 4 by decide) (by decide)
  have hhalves := ((isRasterOf_of_getElem? hupper).fitTogether_iff
    (isRasterOf_of_getElem? hlower)).trans
      (Grid.complements_halves_iff hwidth hheight (rows.getD 3 0))
  refine ⟨fitTogether_sides rows, fitTogether_shades rows,
    ⟨_, _, isRasterOf_of_getElem? hlight, isRasterOf_of_getElem? hmedium,
      lightshade_liesWithin _ _⟩, ⟨_, hcount, hhalves⟩, fun hsmall ↦ ?_⟩
  have hexact : rows.getD 3 0 = if raster.height % 4 = 1 then raster.height / 2
      else raster.height - raster.height / 2 :=
    Except.ok.inj (hcount.symm.trans (eighths_four hsmall))
  constructor
  · rw [hhalves, hexact]
    split <;> omega
  · refine ⟨_, _, isRasterOf_of_getElem? hupper, isRasterOf_of_getElem? hlower,
      fun row hrow column hcolumn ↦ ?_⟩
    rw [Grid.isFilled_ofFunction_of_lt _ hrow hcolumn,
      Grid.isFilled_ofFunction_of_lt _ hrow hcolumn, hexact]
    simp only [decide_eq_true_eq, decide_eq_false_iff_not]
    split <;> omega

/-- On a raster of two columns and three rows the upper half has one row and the lower half two. -/
theorem fitTogether_of_glyphs_threeRows :
    let raster : RasterSize := ⟨2, 3, 2⟩
    0 < raster.width ∧ 0 < raster.height ∧ raster.height < 2 ^ 53 ∧ ∃ drawn,
      glyphs raster = .ok drawn ∧ FitTogether raster drawn "upperhalf" "lowerhalf" := by
  intro raster
  have hwidth : 0 < raster.width := by decide
  have hheight : 0 < raster.height := by decide
  have hsmall : raster.height < 2 ^ 53 := by decide
  obtain ⟨hexists, hfit⟩ := fitTogether_of_glyphs hwidth hheight
  obtain ⟨drawn, hdrawn⟩ := hexists (hsmall.trans (pow_lt_pow_right₀ one_lt_two (by decide)))
  obtain ⟨-, -, -, -, hhalves⟩ := hfit drawn hdrawn
  exact ⟨hwidth, hheight, hsmall, drawn, hdrawn, (hhalves hsmall).1.mpr (by decide)⟩

/-- On five rows the two halves have two each, and leave the third empty. -/
theorem not_fitTogether_fiveRows :
    let raster : RasterSize := ⟨1, 5, 4⟩
    ∃ drawn, glyphs raster = .ok drawn ∧
      IsRasterOf drawn "upperhalf" [[true], [true], [false], [false], [false]] ∧
      IsRasterOf drawn "lowerhalf" [[false], [false], [false], [true], [true]] ∧
      ¬FitTogether raster drawn "upperhalf" "lowerhalf" := by
  intro raster
  have hdrawn : glyphs raster =
      .ok ((patterns 1 5 [1, 1, 2, 2, 3, 4, 4]).map (Pattern.glyph 1 5)) := by
    decide +kernel
  have hupper : IsRasterOf ((patterns 1 5 [1, 1, 2, 2, 3, 4, 4]).map (Pattern.glyph 1 5))
      "upperhalf" [[true], [true], [false], [false], [false]] := ⟨by decide, by decide⟩
  have hlower : IsRasterOf ((patterns 1 5 [1, 1, 2, 2, 3, 4, 4]).map (Pattern.glyph 1 5))
      "lowerhalf" [[false], [false], [false], [true], [true]] := ⟨by decide, by decide⟩
  refine ⟨_, hdrawn, hupper, hlower, fun hfit ↦ ?_⟩
  -- The third row is empty in both.
  have hcell := (hupper.fitTogether_iff hlower).mp hfit 2 (by decide) 0 (by decide)
  exact absurd hcell (by decide)

end BlockElement

end PixelFont
