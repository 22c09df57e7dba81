import PixelFont.Raster.Grid

/-!
Rectangles of cells. A rectangle is given by the column and the row of its top left cell and by
its width and height, which are positive; a place may lie on either side of the origin. A list of
rectangles is drawn into a grid by filling the cells that some rectangle contains.
-/

set_option autoImplicit false

namespace PixelFont

/-- What is wrong with a raster or with rectangles on one. -/
inductive RasterError where
  /-- A row, counted from zero, has another number of cells than the first row. -/
  | raggedRow (row length expected : Nat)
  /-- An extent that is not positive. -/
  | emptyExtent (width height : Int)
  /-- A rectangle that leaves a grid of the given width and height. -/
  | outsideGrid (left top width height gridWidth gridHeight : Int)
  deriving DecidableEq, Repr

/-- The wording of an error. -/
def RasterError.message : RasterError → String
  | .raggedRow row length expected =>
    s!"Raster row {row} has {length} cells, expected {expected}; " ++
      "grids must be validated before compaction"
  | .emptyExtent width height => s!"Rectangle extent must be positive, got {width}x{height}"
  | .outsideGrid left top width height gridWidth gridHeight =>
    s!"Rectangle(x={left}, y={top}, w={width}, h={height}) lies outside a " ++
      s!"{gridWidth}x{gridHeight} grid"

/-- A block of cells: `left` is the column and `top` the row of its first cell. -/
structure Rectangle where
  left : Int
  top : Int
  width : Int
  height : Int
  width_pos : 0 < width
  height_pos : 0 < height
  deriving DecidableEq, Repr

namespace Rectangle

/-- The rectangle of the given place and extent, if the extent is positive. -/
def make (left top width height : Int) : Except RasterError Rectangle :=
  if h : 0 < width ∧ 0 < height then .ok ⟨left, top, width, height, h.1, h.2⟩
  else .error (.emptyExtent width height)

/-- Whether a rectangle contains the cell of a row and a column. -/
def contains (rectangle : Rectangle) (row column : Int) : Bool :=
  rectangle.top ≤ row && row < rectangle.top + rectangle.height &&
    rectangle.left ≤ column && column < rectangle.left + rectangle.width

/-- The cells of a rectangle by row and column, row by row. -/
def cells (rectangle : Rectangle) : List (Int × Int) :=
  (List.range rectangle.height.toNat).flatMap fun (row : Nat) ↦
    (List.range rectangle.width.toNat).map fun (column : Nat) ↦
      (rectangle.top + row, rectangle.left + column)

/-- The number of cells of a rectangle. -/
def area (rectangle : Rectangle) : Int :=
  rectangle.width * rectangle.height

/-- Whether a rectangle lies inside a grid of the given width and height. -/
def fitsIn (rectangle : Rectangle) (width height : Int) : Bool :=
  0 ≤ rectangle.left && 0 ≤ rectangle.top &&
    rectangle.left + rectangle.width ≤ width && rectangle.top + rectangle.height ≤ height

/-- The grid of the given width and height whose filled cells are those of the rectangles. The
first rectangle that leaves the grid is an error. A negative extent of the grid counts as zero
cells. -/
def draw (rectangles : List Rectangle) (width height : Int) : Except RasterError Grid :=
  match rectangles.find? fun rectangle ↦ !rectangle.fitsIn width height with
  | some outside =>
    .error (.outsideGrid outside.left outside.top outside.width outside.height width height)
  | none =>
    .ok (Grid.ofFunction width.toNat height.toNat fun row column ↦
      rectangles.any fun rectangle ↦ rectangle.contains row column)

/-- The cells listed are those that the rectangle contains. -/
theorem mem_cells {rectangle : Rectangle} {row column : Int} :
    (row, column) ∈ rectangle.cells ↔ rectangle.contains row column = true := by
  simp only [cells, contains, List.mem_flatMap, List.mem_map, List.mem_range, Prod.mk.injEq,
    Bool.and_eq_true, decide_eq_true_eq]
  constructor
  · rintro ⟨down, hdown, right, hright, rfl, rfl⟩
    omega
  · rintro ⟨⟨⟨htop, hbottom⟩, hleft⟩, hright⟩
    exact ⟨(row - rectangle.top).toNat, by omega, (column - rectangle.left).toNat, by omega,
      by omega, by omega⟩

end Rectangle

end PixelFont
