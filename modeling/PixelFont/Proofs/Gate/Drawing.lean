import Mathlib.Data.List.Basic
import PixelFont.Gate.Check

/-!
What a single glyph must be for the gate to find nothing wrong with it. `IsDrawn` states it without
the checks: the shape of the raster by the kind of the glyph, the characters of its text, and the
codepoint and components that the kind asks for. The checks of widths overlap, since the width
that rows should have is itself read off the raster where a ligature has no components;
`glyphDefects_eq_nil_iff` says that together they ask for exactly this. The defects of the text are
told apart from those of the drawing (`drawingDefects_eq_nil_iff`).
-/

set_option autoImplicit false

namespace PixelFont

namespace Defect

/-- Whether a defect is one that a glyph has on its own. -/
def isOfGlyph : Defect → Bool
  | height _ _ | width _ _ | ligatureWidth _ _ | componentWidth _ _ _ | rowWidth _ _ _
  | characters _ _ | codepointRange _ | surrogate _ | noCodepoint | noComponents => true
  | _ => false

/-- Whether a defect is one of the characters in the text of a raster. -/
def isOfText : Defect → Bool
  | characters _ _ => true
  | _ => false

theorem isOfGlyph_of_isOfText {defect : Defect} (htext : defect.isOfText = true) :
    defect.isOfGlyph = true := by
  cases defect with
  | characters => rfl
  | _ => exact absurd htext Bool.false_ne_true

/-- No defect that a glyph has on its own is only warned about. -/
theorem severity_of_isOfGlyph {defect : Defect} (hglyph : defect.isOfGlyph = true) :
    defect.severity = .error := by
  cases defect with
  | ligaturesDisabled | unknownComponents => exact absurd hglyph Bool.false_ne_true
  | _ => rfl

end Defect

namespace Gate

/-- Whether a codepoint is that of a character: it is in range and stands for no half of a pair. -/
def IsScalar (codepoint : Int) : Prop :=
  0 ≤ codepoint ∧ codepoint ≤ 0x10FFFF ∧ ¬ (0xD800 ≤ codepoint ∧ codepoint ≤ 0xDFFF)

/-- How many cells the rows of a glyph hold: those of a character, as often as a ligature has
components. -/
def cellsAcross (raster : RasterSize) (glyph : Glyph) : ℕ :=
  if glyph.isLigature then raster.width * glyph.componentLabels.length else raster.width

/-- A glyph whose raster has the shape and the characters it should have, and which has the
codepoint or the components that its kind asks for. -/
structure IsDrawn (raster : RasterSize) (glyph : Glyph) : Prop where
  height : glyph.grid.length = raster.height
  width : ∀ row ∈ glyph.grid, row.length = cellsAcross raster glyph
  lines : ∀ line ∈ glyph.rasterLines, line ≠ "" ∧ ∀ c ∈ line.toList, c = '.' ∨ c = 'X'
  encoded : glyph.isLigature = false → glyph.codepoint ≠ none
  composed : glyph.isLigature = true → glyph.componentLabels ≠ []
  scalar : ∀ codepoint ∈ glyph.codepoint, IsScalar codepoint

variable {raster : RasterSize} {glyph : Glyph}

/-! ### Single checks -/

theorem heightDefects_eq_nil_iff :
    heightDefects raster glyph = [] ↔ glyph.grid.length = raster.height := by
  rw [heightDefects, Grid.height]
  split <;> simp [*]

/-- A check of numbered items finds nothing if it finds nothing wrong with any of them. -/
theorem filterMap_zipIdx_eq_nil_iff {α β : Type} {check : α × ℕ → Option β} {property : α → Prop}
    (hcheck : ∀ item number, check (item, number) = none ↔ property item) (items : List α) :
    (items.zipIdx 1).filterMap check = [] ↔ ∀ item ∈ items, property item := by
  rw [List.filterMap_eq_nil_iff]
  constructor
  · intro hnone item hitem
    rw [← List.zipIdx_map_fst 1 items] at hitem
    obtain ⟨entry, hentry, rfl⟩ := List.mem_map.mp hitem
    exact (hcheck _ _).mp (hnone entry hentry)
  · intro hitems entry hentry
    exact (hcheck _ _).mpr (hitems _ (List.fst_mem_of_mem_zipIdx hentry))

theorem rowDefects_eq_nil_iff :
    rowDefects raster glyph = [] ↔
      ∀ row ∈ glyph.grid, row.length = expectedWidth raster glyph := by
  rw [rowDefects]
  refine filterMap_zipIdx_eq_nil_iff (fun row number ↦ ?_) _
  by_cases hlength : row.length = expectedWidth raster glyph <;> simp [hlength]

theorem isRasterLine_iff {line : String} :
    isRasterLine line = true ↔ line ≠ "" ∧ ∀ c ∈ line.toList, c = '.' ∨ c = 'X' := by
  simp only [isRasterLine, Grid.filledChar, Grid.emptyChar, Bool.and_eq_true, List.all_eq_true,
    Bool.or_eq_true, beq_iff_eq, Bool.not_eq_true', List.isEmpty_eq_false_iff, ne_eq,
    String.toList_eq_nil_iff, or_comm]

theorem lineDefects_eq_nil_iff :
    lineDefects glyph = [] ↔
      ∀ line ∈ glyph.rasterLines, line ≠ "" ∧ ∀ c ∈ line.toList, c = '.' ∨ c = 'X' := by
  rw [lineDefects]
  refine filterMap_zipIdx_eq_nil_iff (fun line number ↦ ?_) _
  rw [← isRasterLine_iff]
  cases hline : isRasterLine line <;> simp [hline]

theorem codepointDefects_eq_nil_iff :
    codepointDefects glyph = [] ↔
      (glyph.isLigature = false → glyph.codepoint ≠ none) ∧
        ∀ codepoint ∈ glyph.codepoint, IsScalar codepoint := by
  unfold codepointDefects
  split
  · rename_i codepoint hcodepoint
    have hscalar : IsScalar codepoint ↔
        ¬ (codepoint < 0 ∨ (Settings.maxCodepoint : Int) < codepoint) ∧
          ¬ (0xD800 ≤ codepoint ∧ codepoint ≤ 0xDFFF) := by
      simp only [IsScalar, Settings.maxCodepoint]
      omega
    simp only [hcodepoint, Option.mem_def, Option.some.injEq, forall_eq', hscalar]
    split
    · simp [*]
    · split <;> simp [*]
  · rename_i hcodepoint
    cases hligature : glyph.isLigature <;> simp [hcodepoint]

theorem componentDefects_eq_nil_iff :
    componentDefects glyph = [] ↔
      (glyph.isLigature = true → glyph.componentLabels ≠ []) := by
  rw [componentDefects]
  cases glyph.isLigature <;> cases glyph.componentLabels <;> simp

/-! ### Widths -/

/-- The width expected of a ligature with components is that of its components. -/
theorem expectedWidth_eq (hcomposed : glyph.isLigature = true → glyph.componentLabels ≠ []) :
    expectedWidth raster glyph = cellsAcross raster glyph := by
  rw [expectedWidth, cellsAcross]
  cases hligature : glyph.isLigature with
  | false => rfl
  | true =>
    have hlabels : glyph.componentLabels.isEmpty = false :=
      List.isEmpty_eq_false_iff.mpr (hcomposed hligature)
    simp [hlabels]

/-- The first row of a glyph is as wide as all its rows, if there is one. -/
theorem width_eq_of_rows {width : ℕ} (hheight : 0 < raster.height)
    (hrows : glyph.grid.length = raster.height) (hwidth : ∀ row ∈ glyph.grid, row.length = width) :
    glyph.grid.width = width := by
  cases hgrid : glyph.grid with
  | nil =>
    rw [hgrid, List.length_nil] at hrows
    omega
  | cons row rows => exact hwidth row (hgrid ▸ List.mem_cons_self)

/-- Rows of the expected width leave nothing to find at the first row. -/
theorem widthDefects_eq_nil (hwidth : 0 < raster.width)
    (hcomposed : glyph.isLigature = true → glyph.componentLabels ≠ [])
    (hfirst : glyph.grid.width = cellsAcross raster glyph) : widthDefects raster glyph = [] := by
  rw [widthDefects, expectedWidth_eq hcomposed, hfirst]
  cases hligature : glyph.isLigature with
  | false => simp [cellsAcross, hligature]
  | true =>
    have hlength : glyph.componentLabels.length ≠ 0 := by
      simpa using hcomposed hligature
    have hpos : raster.width * glyph.componentLabels.length ≠ 0 :=
      Nat.mul_ne_zero (Nat.ne_of_gt hwidth) hlength
    simp [cellsAcross, hligature, hpos]

/-! ### A glyph as a whole -/

/-- On a raster of at least one cell the checks find nothing wrong with a glyph exactly if it is
drawn as it should be. -/
theorem glyphDefects_eq_nil_iff (hwidth : 0 < raster.width) (hheight : 0 < raster.height) :
    glyphDefects raster glyph = [] ↔ IsDrawn raster glyph := by
  simp only [glyphDefects, List.append_eq_nil_iff, heightDefects_eq_nil_iff,
    rowDefects_eq_nil_iff, lineDefects_eq_nil_iff, codepointDefects_eq_nil_iff,
    componentDefects_eq_nil_iff]
  constructor
  · rintro ⟨⟨⟨⟨⟨hrows, -⟩, hcolumns⟩, hlines⟩, hencoded, hscalar⟩, hcomposed⟩
    rw [expectedWidth_eq hcomposed] at hcolumns
    exact ⟨hrows, hcolumns, hlines, hencoded, hcomposed, hscalar⟩
  · intro hdrawn
    have hfirst := width_eq_of_rows hheight hdrawn.height hdrawn.width
    refine ⟨⟨⟨⟨⟨hdrawn.height, ?_⟩, ?_⟩, hdrawn.lines⟩, hdrawn.encoded, hdrawn.scalar⟩,
      hdrawn.composed⟩
    · exact widthDefects_eq_nil hwidth hdrawn.composed hfirst
    · rw [expectedWidth_eq hdrawn.composed]
      exact hdrawn.width

/-! ### Defects of the text and others -/

/-- The defects of a glyph other than those of its text. -/
def drawingDefects (raster : RasterSize) (glyph : Glyph) : List Defect :=
  heightDefects raster glyph ++ widthDefects raster glyph ++ rowDefects raster glyph ++
    codepointDefects glyph ++ componentDefects glyph

theorem mem_glyphDefects_iff {defect : Defect} :
    defect ∈ glyphDefects raster glyph ↔
      defect ∈ drawingDefects raster glyph ∨ defect ∈ lineDefects glyph := by
  simp only [glyphDefects, drawingDefects, List.mem_append]
  tauto

theorem isOfText_of_mem_lineDefects :
    ∀ defect ∈ lineDefects glyph, defect.isOfText = true := by
  refine List.forall_mem_filterMap.mpr fun entry _ defect hdefect ↦ ?_
  obtain ⟨-, hfound⟩ := Option.ite_none_left_eq_some.mp hdefect
  rw [← Option.some.inj hfound]
  rfl

theorem isOfGlyph_of_mem_drawingDefects :
    ∀ defect ∈ drawingDefects raster glyph,
      defect.isOfGlyph = true ∧ defect.isOfText = false := by
  simp only [drawingDefects, List.forall_mem_append]
  refine ⟨⟨⟨⟨?_, ?_⟩, ?_⟩, ?_⟩, ?_⟩
  · unfold heightDefects
    split <;> simp [Defect.isOfGlyph, Defect.isOfText]
  · unfold widthDefects
    dsimp only
    split
    · split
      · simp [Defect.isOfGlyph, Defect.isOfText]
      · split <;> simp [Defect.isOfGlyph, Defect.isOfText]
    · split <;> simp [Defect.isOfGlyph, Defect.isOfText]
  · refine List.forall_mem_filterMap.mpr fun entry _ defect hdefect ↦ ?_
    obtain ⟨-, hfound⟩ := Option.ite_none_left_eq_some.mp hdefect
    rw [← Option.some.inj hfound]
    exact ⟨rfl, rfl⟩
  · unfold codepointDefects
    split
    · split
      · simp [Defect.isOfGlyph, Defect.isOfText]
      · split <;> simp [Defect.isOfGlyph, Defect.isOfText]
    · split <;> simp [Defect.isOfGlyph, Defect.isOfText]
  · unfold componentDefects
    split <;> simp [Defect.isOfGlyph, Defect.isOfText]

/-- A glyph is drawn without defects exactly if those it has are of its text. -/
theorem drawingDefects_eq_nil_iff :
    drawingDefects raster glyph = [] ↔
      ∀ defect ∈ glyphDefects raster glyph, defect.isOfText = true := by
  constructor
  · intro hnone defect hdefect
    have hline : defect ∈ lineDefects glyph := by
      simpa [hnone] using mem_glyphDefects_iff.mp hdefect
    exact isOfText_of_mem_lineDefects defect hline
  · intro htext
    refine List.eq_nil_iff_forall_not_mem.mpr fun defect hdefect ↦ ?_
    have htrue := htext defect (mem_glyphDefects_iff.mpr (Or.inl hdefect))
    rw [(isOfGlyph_of_mem_drawingDefects defect hdefect).2] at htrue
    exact Bool.false_ne_true htrue

/-- Whatever is found wrong with a single glyph is a defect of a glyph on its own. -/
theorem isOfGlyph_of_mem_glyphDefects :
    ∀ defect ∈ glyphDefects raster glyph, defect.isOfGlyph = true := by
  intro defect hdefect
  rcases mem_glyphDefects_iff.mp hdefect with hdrawing | hline
  · exact (isOfGlyph_of_mem_drawingDefects defect hdrawing).1
  · exact Defect.isOfGlyph_of_isOfText (isOfText_of_mem_lineDefects defect hline)

/-- Whatever is wrong with a single glyph keeps a font from being built. -/
theorem severity_of_mem_glyphDefects :
    ∀ defect ∈ glyphDefects raster glyph, defect.severity = .error :=
  fun defect hdefect ↦
    Defect.severity_of_isOfGlyph (isOfGlyph_of_mem_glyphDefects defect hdefect)

end Gate

end PixelFont
