/-!
Pixel grids. A grid is a list of rows from top to bottom, a row a list of cells from left to
right, and a cell is filled or empty. Rows may differ in length; a grid is rectangular when they
do not. In text a filled cell is an `X` and an empty one a point.
-/

set_option autoImplicit false

namespace PixelFont

/-- Rows of cells from top to bottom; a filled cell is `true`. -/
abbrev Grid : Type := List (List Bool)

namespace Grid

/-- The character of a filled cell. -/
def filledChar : Char := 'X'

/-- The character of an empty cell. -/
def emptyChar : Char := '.'

/-- The number of rows. -/
def height (grid : Grid) : Nat :=
  grid.length

/-- The number of cells of the first row, zero where there is no row. -/
def width (grid : Grid) : Nat :=
  match grid with
  | [] => 0
  | row :: _ => row.length

/-- Whether every row is as long as the first. -/
def isRectangular (grid : Grid) : Bool :=
  grid.all fun row ↦ row.length == grid.width

/-- Whether no cell is filled. -/
def isBlank (grid : Grid) : Bool :=
  !grid.any fun row ↦ row.any id

/-- Whether the cell of a row and a column exists and is filled. -/
def isFilled (grid : Grid) (row column : Nat) : Bool :=
  match grid[row]? with
  | none => false
  | some cells => cells[column]?.getD false

/-- A row in text. -/
def rowText (row : List Bool) : String :=
  String.ofList (row.map fun cell ↦ if cell then filledChar else emptyChar)

/-- The rows in text. -/
def rowTexts (grid : Grid) : List String :=
  grid.map rowText

/-- The row that a text shows, one cell for each character: an `X` is filled, anything else is
empty. -/
def ofRowText (text : List Char) : List Bool :=
  text.map (· == filledChar)

/-- The grid of a width and a height whose cell of a row and a column is the given function's. -/
def ofFunction (width height : Nat) (cell : Nat → Nat → Bool) : Grid :=
  (List.range height).map fun row ↦ (List.range width).map fun column ↦ cell row column

section OfFunction

variable {width height : Nat} {cell : Nat → Nat → Bool}

@[simp] theorem length_ofFunction (width height : Nat) (cell : Nat → Nat → Bool) :
    (ofFunction width height cell).length = height := by
  simp [ofFunction]

theorem length_of_mem_ofFunction {cells : List Bool}
    (hcells : cells ∈ ofFunction width height cell) : cells.length = width := by
  obtain ⟨row, -, rfl⟩ := List.mem_map.mp hcells
  simp

theorem getElem?_ofFunction {row : Nat} (hrow : row < height) :
    (ofFunction width height cell)[row]? = some ((List.range width).map (cell row)) := by
  rw [ofFunction, List.getElem?_map, List.getElem?_range hrow]
  rfl

/-- The filled cells of a grid of a function are those of the raster at which the function holds. -/
theorem isFilled_ofFunction (row column : Nat) :
    (ofFunction width height cell).isFilled row column =
      (decide (row < height ∧ column < width) && cell row column) := by
  by_cases hrow : row < height
  · rw [isFilled, getElem?_ofFunction hrow]
    by_cases hcolumn : column < width <;> simp [hrow, hcolumn]
  · have hnone : (ofFunction width height cell)[row]? = none := by simpa using hrow
    rw [isFilled, hnone]
    simp [hrow]

end OfFunction

/-- A row in text shows the row. -/
theorem ofRowText_rowText (row : List Bool) : ofRowText (rowText row).toList = row := by
  simp only [ofRowText, rowText, String.toList_ofList, List.map_map]
  refine (List.map_congr_left fun cell _ ↦ ?_).trans (List.map_id row)
  cases cell <;> rfl

end Grid

end PixelFont
