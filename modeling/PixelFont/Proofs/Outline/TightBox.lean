import Mathlib.Data.Nat.SuccPred
import Mathlib.Order.SuccPred.Archimedean
import PixelFont.Proofs.Font.Clash
import PixelFont.Proofs.Outline.Region

/-!
The box of an outline fits tightly around the filled cells of its raster. The least box around some
boxes lies in a frame exactly if all of them do (`Box.unionAll_liesIn_iff`), and the contour of a
rectangle lies in a frame exactly if its cells do. So the frames of an outline are those of the
filled cells, whatever rectangles these were stacked into, and a box is told by its frames. The
bearing that a font stores for a glyph is the left side of this box. Main statement:
`box_outline_tight`.
-/

set_option autoImplicit false

namespace PixelFont

/-! ### Boxes -/

namespace Box

variable {box other frame : Box}

theorem LiesIn.refl (box : Box) : box.LiesIn box :=
  ⟨Int.le_refl _, Int.le_refl _, Int.le_refl _, Int.le_refl _⟩

theorem LiesIn.antisymm (hbox : box.LiesIn other) (hother : other.LiesIn box) : box = other := by
  rw [Box.mk.injEq]
  exact ⟨Int.le_antisymm hother.left hbox.left, Int.le_antisymm hother.bottom hbox.bottom,
    Int.le_antisymm hbox.right hother.right, Int.le_antisymm hbox.top hother.top⟩

/-- Boxes that lie in the same frames are the same. -/
theorem eq_of_liesIn_iff (hframes : ∀ frame, box.LiesIn frame ↔ other.LiesIn frame) :
    box = other :=
  LiesIn.antisymm ((hframes other).mpr (.refl other)) ((hframes box).mp (.refl box))

theorem union_liesIn_iff :
    (box.union other).LiesIn frame ↔ box.LiesIn frame ∧ other.LiesIn frame := by
  constructor
  · rintro ⟨hleft, hbottom, hright, htop⟩
    simp only [union, le_min_iff, max_le_iff] at hleft hbottom hright htop
    exact ⟨⟨hleft.1, hbottom.1, hright.1, htop.1⟩, ⟨hleft.2, hbottom.2, hright.2, htop.2⟩⟩
  · rintro ⟨hbox, hother⟩
    exact ⟨le_min hbox.left hother.left, le_min hbox.bottom hother.bottom,
      max_le hbox.right hother.right, max_le hbox.top hother.top⟩

theorem foldl_union_liesIn_iff {boxes : List Box} :
    (boxes.foldl union box).LiesIn frame ↔
      box.LiesIn frame ∧ ∀ other ∈ boxes, other.LiesIn frame := by
  induction boxes generalizing box with
  | nil => simp
  | cons first boxes ih =>
    rw [List.foldl_cons, ih, union_liesIn_iff, List.forall_mem_cons, and_assoc]

/-- The least box around some boxes lies in a frame exactly if all of them do. -/
theorem unionAll_liesIn_iff {boxes : List Box} (hboxes : boxes ≠ []) :
    (unionAll boxes).LiesIn frame ↔ ∀ box ∈ boxes, box.LiesIn frame := by
  cases boxes with
  | nil => exact absurd rfl hboxes
  | cons first boxes => rw [unionAll, foldl_union_liesIn_iff, List.forall_mem_cons]

end Box

/-! ### Frames of an outline -/

/-- The contour of a rectangle lies in a frame exactly if the cells do that it contains. -/
theorem Rectangle.contour_liesIn_iff {scale : Scale} (hpixel : 0 < scale.pixelSize)
    {rectangle : Rectangle} {frame : Box} :
    (rectangle.contour scale).box.LiesIn frame ↔
      ∀ row column : Int, rectangle.contains row column = true →
        (scale.box column row 1 1).LiesIn frame := by
  have hwidth := rectangle.width_pos
  have hheight := rectangle.height_pos
  rw [box_contour hpixel]
  constructor
  · rintro ⟨hleft, hbottom, hright, htop⟩ row column hcell
    rw [contains_eq_true_iff] at hcell
    constructor
    · exact hleft.trans ((Scale.x_le_x_iff hpixel).mpr (by omega))
    · exact hbottom.trans ((Scale.y_le_y_iff hpixel).mpr (by omega))
    · exact ((Scale.x_le_x_iff hpixel).mpr (by omega)).trans hright
    · exact ((Scale.y_le_y_iff hpixel).mpr (by omega)).trans htop
  · intro hcells
    -- The first and the last cell of the rectangle have its four sides between them.
    have hfirst := hcells rectangle.top rectangle.left (contains_eq_true_iff.mpr (by omega))
    have hlast := hcells (rectangle.top + rectangle.height - 1)
      (rectangle.left + rectangle.width - 1) (contains_eq_true_iff.mpr (by omega))
    have hright := hlast.right
    have hbottom := hlast.bottom
    simp only [Scale.box, Int.sub_add_cancel] at hright hbottom
    exact ⟨hfirst.left, hbottom, hright, hfirst.top⟩

/-- The outline of an exact cover lies in a frame exactly if the filled cells do, unless there is
none. -/
theorem Grid.IsExactCover.box_liesIn_iff {grid : Grid} {rectangles : List Rectangle}
    (hcover : grid.IsExactCover rectangles) {scale : Scale} (hpixel : 0 < scale.pixelSize)
    (hfilled : ∃ row column : Int, grid.fills row column = true) {frame : Box} :
    (Box.unionAll ((Rectangle.contours scale rectangles).map Contour.box)).LiesIn frame ↔
      ∀ row column : Int, grid.fills row column = true →
        (scale.box column row 1 1).LiesIn frame := by
  obtain ⟨row, column, hfills⟩ := hfilled
  obtain ⟨rectangle, hrectangle, -⟩ := hcover.exists_contains_iff.mpr hfills
  have hsome : (Rectangle.contours scale rectangles).map Contour.box ≠ [] := by
    rw [Rectangle.contours, List.map_map]
    exact List.ne_nil_of_mem (List.mem_map_of_mem hrectangle)
  rw [Box.unionAll_liesIn_iff hsome, Rectangle.contours, List.forall_mem_map, List.forall_mem_map]
  simp only [Rectangle.contour_liesIn_iff hpixel, ← hcover.exists_contains_iff]
  constructor
  · rintro hrectangles row column ⟨rectangle, hrectangle, hcell⟩
    exact hrectangles rectangle hrectangle row column hcell
  · intro hcells rectangle hrectangle row column hcell
    exact hcells row column ⟨rectangle, hrectangle, hcell⟩

/-- An exact cover of a grid without a filled cell is of no rectangle. -/
theorem Grid.IsExactCover.eq_nil {grid : Grid} {rectangles : List Rectangle}
    (hcover : grid.IsExactCover rectangles)
    (hblank : ∀ row column, grid.isFilled row column = false) : rectangles = [] := by
  rw [List.eq_nil_iff_forall_not_mem]
  intro rectangle hrectangle
  have hwidth := rectangle.width_pos
  have hheight := rectangle.height_pos
  have hcorner : rectangle.contains rectangle.top rectangle.left = true :=
    Rectangle.contains_eq_true_iff.mpr (by omega)
  have hfills := hcover.exists_contains_iff.mp ⟨rectangle, hrectangle, hcorner⟩
  rw [fills, hblank, Bool.and_false] at hfills
  exact Bool.false_ne_true hfills

/-! ### The extent of the filled cells -/

namespace Grid

/-- The rows of which some cell is filled. -/
def filledRows (grid : Grid) : Set ℕ :=
  {row | ∃ column, grid.isFilled row column = true}

/-- The columns of which some cell is filled. -/
def filledColumns (grid : Grid) : Set ℕ :=
  {column | ∃ row, grid.isFilled row column = true}

/-- The first and the last row and column of the filled cells of a grid. -/
structure IsFilledExtent (grid : Grid) (top bottom left right : ℕ) : Prop where
  top : IsLeast grid.filledRows top
  bottom : IsGreatest grid.filledRows bottom
  left : IsLeast grid.filledColumns left
  right : IsGreatest grid.filledColumns right

/-- Whether some cell of a column is filled. -/
def isColumnFilled (grid : Grid) (column : ℕ) : Bool :=
  grid.any fun cells ↦ cells[column]?.getD false

/-- The number of columns before the first one of which some cell is filled. -/
def leadingBlankColumns (grid : Grid) : ℕ :=
  (List.range grid.width).findIdx grid.isColumnFilled

variable {grid : Grid}

theorem isColumnFilled_eq_true_iff {column : ℕ} :
    grid.isColumnFilled column = true ↔ column ∈ grid.filledColumns := by
  rw [isColumnFilled, List.any_eq_true, filledColumns, Set.mem_ofPred_eq]
  simp only [isFilled_eq_true_iff, List.mem_iff_getElem?, Option.getD_eq_iff, Bool.false_eq_true,
    and_false, or_false]
  constructor
  · rintro ⟨cells, ⟨row, hcells⟩, hcell⟩
    exact ⟨row, cells, hcells, hcell⟩
  · rintro ⟨row, cells, hcells, hcell⟩
    exact ⟨cells, ⟨row, hcells⟩, hcell⟩

variable (hgrid : grid.isRectangular = true)
include hgrid

theorem bddAbove_filledRows : BddAbove grid.filledRows := by
  refine ⟨grid.height, fun row hrow ↦ ?_⟩
  obtain ⟨column, hfilled⟩ := hrow
  have hbounds := bounds_of_fills hgrid ((fills_natCast grid row column).trans hfilled)
  omega

theorem lt_width_of_mem_filledColumns {column : ℕ} (hcolumn : column ∈ grid.filledColumns) :
    column < grid.width := by
  obtain ⟨row, hfilled⟩ := hcolumn
  have hbounds := bounds_of_fills hgrid ((fills_natCast grid row column).trans hfilled)
  omega

/-- A rectangular grid of which some cell is filled has first and last rows and columns of filled
cells. -/
theorem exists_isFilledExtent {row column : ℕ} (hfilled : grid.isFilled row column = true) :
    ∃ top bottom left right, grid.IsFilledExtent top bottom left right := by
  have hrows : grid.filledRows.Nonempty := ⟨row, column, hfilled⟩
  have hcolumns : grid.filledColumns.Nonempty := ⟨column, row, hfilled⟩
  have hwide : BddAbove grid.filledColumns :=
    ⟨grid.width, fun _ hcolumn ↦ (lt_width_of_mem_filledColumns hgrid hcolumn).le⟩
  obtain ⟨top, htop⟩ := (OrderBot.bddBelow grid.filledRows).exists_isLeast_of_nonempty hrows
  obtain ⟨bottom, hbottom⟩ := (bddAbove_filledRows hgrid).exists_isGreatest_of_nonempty hrows
  obtain ⟨left, hleft⟩ :=
    (OrderBot.bddBelow grid.filledColumns).exists_isLeast_of_nonempty hcolumns
  obtain ⟨right, hright⟩ := hwide.exists_isGreatest_of_nonempty hcolumns
  exact ⟨top, bottom, left, right, htop, hbottom, hleft, hright⟩

/-- The leading blank columns are those before the first column of a filled cell. -/
theorem leadingBlankColumns_eq {left : ℕ} (hleft : IsLeast grid.filledColumns left) :
    grid.leadingBlankColumns = left := by
  have hwidth : left < (List.range grid.width).length := by
    rw [List.length_range]
    exact lt_width_of_mem_filledColumns hgrid hleft.1
  rw [leadingBlankColumns, List.findIdx_eq hwidth]
  simp only [List.getElem_range]
  refine ⟨isColumnFilled_eq_true_iff.mpr hleft.1, fun column hcolumn ↦ ?_⟩
  rw [← Bool.not_eq_true, isColumnFilled_eq_true_iff]
  exact fun hmem ↦ absurd (hleft.2 hmem) (Nat.not_le.mpr hcolumn)

end Grid

/-- The box from the first to the last row and column of the filled cells of a grid lies in a frame
exactly if the filled cells do. -/
theorem Grid.IsFilledExtent.box_liesIn_iff {grid : Grid} {top bottom left right : ℕ}
    (hextent : grid.IsFilledExtent top bottom left right) {scale : Scale}
    (hpixel : 0 < scale.pixelSize) {frame : Box} :
    Box.LiesIn ⟨scale.x left, scale.y (bottom + 1), scale.x (right + 1), scale.y top⟩ frame ↔
      ∀ row column : Int, grid.fills row column = true →
        (scale.box column row 1 1).LiesIn frame := by
  constructor
  · rintro ⟨hleft, hbottom, hright, htop⟩ row column hfills
    simp only [fills, Bool.and_eq_true, decide_eq_true_eq] at hfills
    obtain ⟨⟨hrow, hcolumn⟩, hfilled⟩ := hfills
    have hfirstRow := hextent.top.2 ⟨_, hfilled⟩
    have hlastRow := hextent.bottom.2 ⟨_, hfilled⟩
    have hfirstColumn := hextent.left.2 ⟨_, hfilled⟩
    have hlastColumn := hextent.right.2 ⟨_, hfilled⟩
    constructor
    · exact hleft.trans ((Scale.x_le_x_iff hpixel).mpr (by omega))
    · exact hbottom.trans ((Scale.y_le_y_iff hpixel).mpr (by omega))
    · exact ((Scale.x_le_x_iff hpixel).mpr (by omega)).trans hright
    · exact ((Scale.y_le_y_iff hpixel).mpr (by omega)).trans htop
  · intro hcells
    -- Each side of the box is that of a filled cell in the row or column it belongs to.
    have hcell {row column : ℕ} (hfilled : grid.isFilled row column = true) :
        (scale.box column row 1 1).LiesIn frame :=
      hcells row column ((fills_natCast grid row column).trans hfilled)
    obtain ⟨_, htop⟩ := hextent.top.1
    obtain ⟨_, hbottom⟩ := hextent.bottom.1
    obtain ⟨_, hleft⟩ := hextent.left.1
    obtain ⟨_, hright⟩ := hextent.right.1
    exact ⟨(hcell hleft).left, (hcell hbottom).bottom, (hcell hright).right, (hcell htop).top⟩

/-! ### Outlines of glyphs -/

/-- The box of the outline of a raster without a filled cell is the one at the origin. Else its
sides are those of the first and the last row and column of filled cells, and a font that is
assembled from the outline, among others, stores as the left bearing of the one glyph of its name
the width of the blank columns before the first filled one. -/
theorem box_outline_tight (glyph : Glyph) (hgrid : glyph.grid.isRectangular = true) {scale : Scale}
    (hpixel : 1 ≤ scale.pixelSize) (baseWidth : Int) :
    ∃ rectangles, glyph.grid.compact = .ok rectangles ∧
      let outline := glyph.outline rectangles scale baseWidth
      ((∀ row column, glyph.grid.isFilled row column = false) → outline.box = ⟨0, 0, 0, 0⟩) ∧
      ((∃ row column, glyph.grid.isFilled row column = true) →
        (∃ top bottom left right, glyph.grid.IsFilledExtent top bottom left right ∧
          outline.box = ⟨scale.pixelSize * left,
            scale.pixelSize * (scale.baselineRow - 1 - bottom),
            scale.pixelSize * (right + 1),
            scale.pixelSize * (scale.baselineRow - top)⟩) ∧
        ∀ settings compiled font, Font.assemble settings compiled = .ok font →
          outline ∈ compiled.outlines →
          ∃ stored ∈ font.glyphs,
            (∀ other ∈ font.glyphs, other.name = outline.name ↔ other = stored) ∧
            stored.leftBearing = scale.pixelSize * glyph.grid.leadingBlankColumns) := by
  have hcover := Grid.isExactCover_stacked hgrid
  refine ⟨_, Grid.compact_eq_ok hgrid, ?_⟩
  intro outline
  constructor
  · intro hblank
    show Box.unionAll ((Rectangle.contours scale _).map Contour.box) = Box.zero
    rw [hcover.eq_nil hblank]
    rfl
  · rintro ⟨row, column, hfilled⟩
    obtain ⟨top, bottom, left, right, hextent⟩ := Grid.exists_isFilledExtent hgrid hfilled
    have hsome : ∃ row column : Int, glyph.grid.fills row column = true :=
      ⟨row, column, (Grid.fills_natCast _ row column).trans hfilled⟩
    have hframes : outline.box =
        ⟨scale.x left, scale.y (bottom + 1), scale.x (right + 1), scale.y top⟩ :=
      Box.eq_of_liesIn_iff fun frame ↦
        (hcover.box_liesIn_iff hpixel hsome).trans (hextent.box_liesIn_iff hpixel).symm
    have hbaseline : scale.baselineRow - (bottom + 1) = scale.baselineRow - 1 - bottom := by omega
    have hbox : outline.box = ⟨scale.pixelSize * left,
        scale.pixelSize * (scale.baselineRow - 1 - bottom), scale.pixelSize * (right + 1),
        scale.pixelSize * (scale.baselineRow - top)⟩ := by
      simp only [hframes, Scale.x, Scale.y, Int.mul_comm, hbaseline]
    refine ⟨⟨top, bottom, left, right, hextent, hbox⟩, ?_⟩
    intro settings compiled font hfont houtline
    obtain ⟨hstored, hothers⟩ := Font.glyphOf_of_assemble settings hfont houtline
    refine ⟨Font.glyphOf outline, hstored, hothers, ?_⟩
    rw [Grid.leadingBlankColumns_eq hgrid hextent.left, Font.glyphOf, hbox]

/-- A comma behind a blank column, with two of its three rows below the baseline. -/
theorem box_outline_tight_comma :
    let comma : Glyph :=
      { label := "comma", codepoint := some 44, rasterLines := [".XX", "..X", ".X."],
        grid := [[false, true, true], [false, false, true], [false, true, false]] }
    let scale : Scale := ⟨50, 1⟩
    comma.grid.isRectangular = true ∧ 1 ≤ scale.pixelSize ∧
      ∃ rectangles font, comma.grid.compact = .ok rectangles ∧
        let outline := comma.outline rectangles scale 3
        outline.box = ⟨50, -100, 150, 50⟩ ∧
        Font.assemble {} ⟨.regular, [outline], []⟩ = .ok font ∧
        ∃ stored ∈ font.glyphs,
          (∀ other ∈ font.glyphs, other.name = outline.name ↔ other = stored) ∧
          stored.leftBearing = 50 := by
  intro comma scale
  have hgrid : comma.grid.isRectangular = true := rfl
  have hpixel : 1 ≤ scale.pixelSize := by decide
  have hfilled : comma.grid.isFilled 0 1 = true := rfl
  have hcover : comma.grid.compact = .ok [⟨1, 0, 2, 1, by decide, by decide⟩,
      ⟨2, 1, 1, 1, by decide, by decide⟩, ⟨1, 2, 1, 1, by decide, by decide⟩] := by
    decide +kernel
  obtain ⟨rectangles, hrectangles, -, hbox⟩ := box_outline_tight comma hgrid hpixel 3
  have hfont : ∃ font, Font.assemble {} ⟨.regular, [comma.outline rectangles scale 3], []⟩ =
      .ok font := ⟨_, rfl⟩
  obtain ⟨font, hfont⟩ := hfont
  have hstored := (hbox ⟨0, 1, hfilled⟩).2 _ _ _ hfont (List.mem_singleton_self _)
  have hsides : (comma.outline rectangles scale 3).box = ⟨50, -100, 150, 50⟩ := by
    rw [Except.ok.inj (hrectangles.symm.trans hcover)]
    rfl
  exact ⟨hgrid, hpixel, rectangles, font, hrectangles, hsides, hfont, hstored⟩

end PixelFont
