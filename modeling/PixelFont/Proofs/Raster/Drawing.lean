import PixelFont.Proofs.Raster.ExactCover

/-!
Drawing rectangles of any kind, one over another and several times if need be. `Rectangle.draw` says
at once which cells are filled; `Rectangle.paint` goes from rectangle to rectangle, looks at each
before it touches the grid, and fills its cells one by one by indices that would count from the end
where they are negative. Filling a cell of a grid adds this cell and no other
(`Grid.fillCell_ofFunction`), a rectangle that passes the check has cells of the grid only, so
painting never goes astray, and both ways give the same (`Rectangle.paint_eq_draw`). Main statement:
`Rectangle.draw_anyRectangles`.
-/

set_option autoImplicit false

namespace PixelFont

/-! ### Painting cell by cell -/

/-- Why painting stops. -/
inductive PaintError where
  | raster (error : RasterError)
  /-- A row and a column by which the grid has no cell. -/
  | noCell (cell : Int × Int)
  deriving DecidableEq, Repr

/-- The place in a list of some length that an index names; a negative one counts from the end. -/
def place? (length : ℕ) (index : Int) : Option ℕ :=
  let place := if index < 0 then index + length else index
  if 0 ≤ place ∧ place < length then some place.toNat else none

theorem place?_eq_some {length : ℕ} {index : Int} (hindex : 0 ≤ index ∧ index < length) :
    place? length index = some index.toNat := by
  rw [place?, if_neg (Int.not_lt.mpr hindex.1), if_pos hindex]

namespace Grid

/-- The grid with the cell of a row and a column filled. -/
def fillCell (grid : Grid) (cell : Int × Int) : Except PaintError Grid :=
  match place? grid.length cell.1 with
  | none => .error (.noCell cell)
  | some row =>
    match place? (grid.getD row []).length cell.2 with
    | none => .error (.noCell cell)
    | some column => .ok (grid.modify row fun cells ↦ cells.set column true)

variable {width height : ℕ} {filled : ℕ → ℕ → Bool}

theorem set_map_range {α : Type} (item : ℕ → α) (length place : ℕ) (value : α) :
    ((List.range length).map item).set place value =
      (List.range length).map (Function.update item place value) := by
  refine List.ext_getElem (by simp) fun index _ _ ↦ ?_
  simp only [List.getElem_set, List.getElem_map, List.getElem_range, Function.update_apply]
  exact if_congr eq_comm rfl rfl

theorem modify_map_range {α : Type} (item : ℕ → α) (length place : ℕ) (change : α → α) :
    ((List.range length).map item).modify place change =
      (List.range length).map (Function.update item place (change (item place))) := by
  refine List.ext_getElem (by simp) fun index _ _ ↦ ?_
  simp only [List.getElem_modify, List.getElem_map, List.getElem_range, Function.update_apply]
  by_cases hindex : place = index
  · rw [if_pos hindex, if_pos hindex.symm, hindex]
  · rw [if_neg hindex, if_neg (Ne.symm hindex)]

/-- Filling a cell of a grid adds this cell to the filled ones. -/
theorem fillCell_ofFunction {cell : Int × Int} (hrow : 0 ≤ cell.1 ∧ cell.1 < height)
    (hcolumn : 0 ≤ cell.2 ∧ cell.2 < width) :
    (ofFunction width height filled).fillCell cell =
      .ok (ofFunction width height fun row column ↦
        filled row column || decide (((row : Int), (column : Int)) = cell)) := by
  obtain ⟨row, hrowEq⟩ := Int.eq_ofNat_of_zero_le hrow.1
  obtain ⟨column, hcolumnEq⟩ := Int.eq_ofNat_of_zero_le hcolumn.1
  obtain rfl : cell = ((row : Int), (column : Int)) := Prod.ext hrowEq hcolumnEq
  have hwithin : row < height := Int.ofNat_lt.mp hrow.2
  have hcells : (ofFunction width height filled).getD row [] =
      (List.range width).map (filled row) := by
    rw [List.getD_eq_getElem?_getD, getElem?_ofFunction hwithin, Option.getD_some]
  have hwidth : ((List.range width).map (filled row)).length = width := by simp
  rw [fillCell, length_ofFunction, place?_eq_some hrow]
  dsimp only
  rw [Int.toNat_natCast, hcells, hwidth, place?_eq_some hcolumn]
  dsimp only
  rw [Int.toNat_natCast, ofFunction, modify_map_range, set_map_range]
  refine congrArg Except.ok (List.map_congr_left fun other _ ↦ ?_)
  simp only [Prod.mk.injEq, Int.ofNat_inj]
  rw [Function.update_apply]
  split
  · rename_i hsame
    subst hsame
    refine List.map_congr_left fun another _ ↦ ?_
    rw [Function.update_apply]
    split <;> simp [*]
  · simp [*]

/-- Filling cells of a grid one by one adds them to the filled ones. -/
theorem foldlM_fillCell_ofFunction {cells : List (Int × Int)}
    (hcells : ∀ cell ∈ cells, (0 ≤ cell.1 ∧ cell.1 < height) ∧ 0 ≤ cell.2 ∧ cell.2 < width) :
    cells.foldlM fillCell (ofFunction width height filled) =
      .ok (ofFunction width height fun row column ↦
        filled row column || cells.contains ((row : Int), (column : Int))) := by
  induction cells generalizing filled with
  | nil => simp [pure, Except.pure]
  | cons cell cells ih =>
    obtain ⟨hcell, hrest⟩ := List.forall_mem_cons.mp hcells
    rw [List.foldlM_cons, fillCell_ofFunction hcell.1 hcell.2]
    show cells.foldlM fillCell _ = _
    rw [ih hrest]
    simp [Bool.or_assoc]

end Grid

namespace Rectangle

/-- A grid with a rectangle painted over it, which is looked at before any cell is filled. -/
def paintOver (width height : Int) (grid : Grid) (rectangle : Rectangle) :
    Except PaintError Grid :=
  if rectangle.fitsIn width height then rectangle.cells.foldlM Grid.fillCell grid
  else .error (.raster (.outsideGrid rectangle.left rectangle.top rectangle.width rectangle.height
    width height))

/-- Rectangles painted one after the other over a grid of empty cells. -/
def paint (rectangles : List Rectangle) (width height : Int) : Except PaintError Grid :=
  rectangles.foldlM (paintOver width height)
    (Grid.ofFunction width.toNat height.toNat fun _ _ ↦ false)

variable {width height : Int} {filled : ℕ → ℕ → Bool}

/-- A rectangle inside a grid adds the cells that it contains to the filled ones. -/
theorem paintOver_ofFunction {rectangle : Rectangle}
    (hinside : rectangle.fitsIn width height = true) :
    paintOver width height (Grid.ofFunction width.toNat height.toNat filled) rectangle =
      .ok (Grid.ofFunction width.toNat height.toNat fun row column ↦
        filled row column || rectangle.contains row column) := by
  have hcells : ∀ cell ∈ rectangle.cells,
      (0 ≤ cell.1 ∧ cell.1 < height.toNat) ∧ 0 ≤ cell.2 ∧ cell.2 < width.toNat := by
    intro cell hcell
    have hbounds := fitsIn_eq_true_iff.mp hinside
    have hheld := contains_eq_true_iff.mp (mem_cells.mp hcell)
    omega
  have hcontains (row column : ℕ) :
      rectangle.cells.contains ((row : Int), (column : Int)) = rectangle.contains row column := by
    rw [Bool.eq_iff_iff, List.contains_iff_mem, mem_cells]
  rw [paintOver, if_pos hinside, Grid.foldlM_fillCell_ofFunction hcells]
  simp only [hcontains]

/-- Painting goes on until it meets a rectangle that leaves the grid. -/
theorem foldlM_paintOver_ofFunction (rectangles : List Rectangle) :
    rectangles.foldlM (paintOver width height)
        (Grid.ofFunction width.toNat height.toNat filled) =
      match rectangles.find? fun rectangle ↦ !rectangle.fitsIn width height with
      | some outside => .error (.raster (.outsideGrid outside.left outside.top outside.width
          outside.height width height))
      | none => .ok (Grid.ofFunction width.toNat height.toNat fun row column ↦
          filled row column || rectangles.any fun rectangle ↦ rectangle.contains row column) := by
  induction rectangles generalizing filled with
  | nil => simp [pure, Except.pure]
  | cons first rest ih =>
    rw [List.foldlM_cons, List.find?_cons]
    cases hfirst : first.fitsIn width height with
    | false =>
      rw [paintOver, hfirst]
      rfl
    | true =>
      rw [paintOver_ofFunction hfirst]
      show rest.foldlM (paintOver width height) _ = _
      rw [ih]
      simp only [Bool.not_true, List.any_cons, Bool.or_assoc]

/-- Painting rectangles cell by cell gives the grid that they draw, and stops at no other fault. -/
theorem paint_eq_draw (rectangles : List Rectangle) (width height : Int) :
    paint rectangles width height =
      (draw rectangles width height).mapError PaintError.raster := by
  rw [paint, foldlM_paintOver_ofFunction, draw]
  cases rectangles.find? fun rectangle ↦ !rectangle.fitsIn width height with
  | some outside => rfl
  | none => simp [Except.mapError]

/-! ### What is drawn -/

/-- Whether a rectangle leaves a raster on one of its four sides. -/
def Leaves (rectangle : Rectangle) (width height : Int) : Prop :=
  rectangle.left < 0 ∨ rectangle.top < 0 ∨ width < rectangle.left + rectangle.width ∨
    height < rectangle.top + rectangle.height

theorem leaves_iff {rectangle : Rectangle} {width height : Int} :
    rectangle.Leaves width height ↔ ¬ rectangle.fitsIn width height = true := by
  rw [Leaves, fitsIn_eq_true_iff]
  omega

/-- A rectangle that leaves the raster is refused, and rectangles are refused for one only. -/
theorem exists_draw_eq_error_iff {rectangles : List Rectangle} :
    (∃ outside ∈ rectangles, draw rectangles width height = .error (.outsideGrid outside.left
        outside.top outside.width outside.height width height)) ↔
      ∃ rectangle ∈ rectangles, rectangle.Leaves width height := by
  simp only [leaves_iff]
  constructor
  · rintro ⟨outside, -, herror⟩
    by_contra hnone
    push Not at hnone
    rw [draw_eq_ok hnone] at herror
    exact absurd herror nofun
  · rintro ⟨rectangle, hrectangle, houtside⟩
    cases hfound : rectangles.find? fun rectangle ↦ !rectangle.fitsIn width height with
    | none =>
      have hinside := List.find?_eq_none.mp hfound rectangle hrectangle
      rw [Bool.not_eq_true', Bool.not_eq_false] at hinside
      exact absurd hinside houtside
    | some outside =>
      refine ⟨outside, List.mem_of_find?_eq_some hfound, ?_⟩
      rw [draw, hfound]

/-- Rectangles inside a raster draw the cells that some one of them contains. -/
theorem fills_ofFunction_contains_iff {rectangles : List Rectangle} {width height : ℕ}
    (hinside : ∀ rectangle ∈ rectangles, rectangle.fitsIn width height = true) {row column : Int} :
    (Grid.ofFunction width height fun row column ↦
        rectangles.any fun rectangle ↦ rectangle.contains row column).fills row column = true ↔
      ∃ rectangle ∈ rectangles, rectangle.contains row column = true := by
  rw [Grid.fills_ofFunction_iff, List.any_eq_true]
  constructor
  · rintro ⟨⟨hrow, hcolumn⟩, hheld⟩
    rwa [Int.toNat_of_nonneg hrow.1, Int.toNat_of_nonneg hcolumn.1] at hheld
  · rintro ⟨rectangle, hrectangle, hheld⟩
    have hbounds := fitsIn_eq_true_iff.mp (hinside rectangle hrectangle)
    have hplace := contains_eq_true_iff.mp hheld
    refine ⟨by omega, rectangle, hrectangle, ?_⟩
    rwa [Int.toNat_of_nonneg (by omega), Int.toNat_of_nonneg (by omega)]

/-- Rectangles, one over another or not, are drawn on a raster exactly if none leaves it on one of
its four sides, cell by cell or at once. Those cells of the raster are filled that some rectangle
contains, so that the order of the rectangles does not matter, and the cover of the grid is made of
disjoint rectangles with the same cells. -/
theorem draw_anyRectangles (rectangles : List Rectangle) (width height : ℕ) :
    paint rectangles width height =
        (draw rectangles width height).mapError PaintError.raster ∧
      ((∃ outside ∈ rectangles, draw rectangles width height = .error (.outsideGrid outside.left
          outside.top outside.width outside.height width height)) ↔
        ∃ rectangle ∈ rectangles, rectangle.Leaves width height) ∧
      ((∀ rectangle ∈ rectangles, ¬ rectangle.Leaves width height) →
        ∃ grid, draw rectangles width height = .ok grid ∧
          grid.length = height ∧ (∀ cells ∈ grid, cells.length = width) ∧
          (∀ row column : ℕ, grid.isFilled row column = true ↔
            ∃ rectangle ∈ rectangles, rectangle.contains row column = true) ∧
          (∀ others, others.Perm rectangles → draw others width height = .ok grid) ∧
          ∃ cover, grid.compact = .ok cover ∧
            (cover.Pairwise fun first second ↦ ∀ row column : Int,
              ¬ (first.contains row column = true ∧ second.contains row column = true)) ∧
            ∀ row column : Int, (∃ rectangle ∈ cover, rectangle.contains row column = true) ↔
              ∃ rectangle ∈ rectangles, rectangle.contains row column = true) := by
  refine ⟨paint_eq_draw _ _ _, exists_draw_eq_error_iff, fun hstays ↦ ?_⟩
  have hinside : ∀ rectangle ∈ rectangles, rectangle.fitsIn width height = true :=
    fun rectangle hrectangle ↦ not_not.mp (mt leaves_iff.mpr (hstays rectangle hrectangle))
  have hdrawn := draw_eq_ok hinside
  rw [Int.toNat_natCast, Int.toNat_natCast] at hdrawn
  have hcover := Grid.isExactCover_stacked (Grid.isRectangular_ofFunction width height
    fun row column ↦ rectangles.any fun rectangle ↦ rectangle.contains row column)
  refine ⟨_, hdrawn, Grid.length_ofFunction width height _,
    fun _ hcells ↦ Grid.length_of_mem_ofFunction hcells, fun row column ↦ ?_, fun others hperm ↦ ?_,
    _, Grid.compact_eq_ok (Grid.isRectangular_ofFunction width height _), hcover.pairwise_disjoint,
    fun row column ↦ hcover.exists_contains_iff.trans (fills_ofFunction_contains_iff hinside)⟩
  · rw [← Grid.fills_natCast]
    exact fills_ofFunction_contains_iff hinside
  · have hothers : ∀ rectangle ∈ others, rectangle.fitsIn width height = true :=
      fun rectangle hrectangle ↦ hinside rectangle (hperm.mem_iff.mp hrectangle)
    rw [draw_eq_ok hothers, Int.toNat_natCast, Int.toNat_natCast]
    simp only [hperm.any_eq]

/-- Two overlapping squares of which the first is drawn twice, and a square that leaves the raster
to the left, where an index would count from the end. -/
theorem draw_anyRectangles_overlapping :
    let square (left top : Int) : Rectangle := ⟨left, top, 2, 2, by decide, by decide⟩
    let squares : List Rectangle := [square 0 0, square 1 1, square 0 0]
    (∀ rectangle ∈ squares, ¬ rectangle.Leaves 3 4) ∧
      (∃ grid cover, draw squares 3 4 = .ok grid ∧ grid.compact = .ok cover ∧
        grid = [[true, true, false], [true, true, true], [false, true, true],
          [false, false, false]] ∧
        (cover.Pairwise fun first second ↦ ∀ row column : Int,
          ¬ (first.contains row column = true ∧ second.contains row column = true)) ∧
        ∀ row column : Int, (∃ rectangle ∈ cover, rectangle.contains row column = true) ↔
          ∃ rectangle ∈ squares, rectangle.contains row column = true) ∧
      (square (-1) 0).Leaves 3 4 ∧
      ∃ outside ∈ square (-1) 0 :: squares, draw (square (-1) 0 :: squares) 3 4 =
        .error (.outsideGrid outside.left outside.top outside.width outside.height 3 4) := by
  intro square squares
  have hstays : ∀ rectangle ∈ squares, ¬ rectangle.Leaves 3 4 := by
    unfold Leaves
    decide
  have hleaves : (square (-1) 0).Leaves 3 4 := Or.inl (by decide)
  obtain ⟨grid, hgrid, -, -, -, -, cover, hcover, hdisjoint, hcells⟩ :=
    (draw_anyRectangles squares 3 4).2.2 hstays
  refine ⟨hstays, ⟨grid, cover, hgrid, hcover, ?_, hdisjoint, hcells⟩, hleaves, ?_⟩
  · exact Except.ok.inj (hgrid.symm.trans (by decide +kernel))
  · exact (draw_anyRectangles (square (-1) 0 :: squares) 3 4).2.1.mpr
      ⟨_, List.mem_cons_self, hleaves⟩

end Rectangle

end PixelFont
