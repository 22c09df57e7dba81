import PixelFont.Raster.Grid

/-!
Widening of strokes: every filled cell also fills the cell to its right, the last column of a row
having none. Lengths of rows stay as they are.
-/

set_option autoImplicit false

namespace PixelFont.Grid

/-- A row widened, given whether the cell before it is filled. -/
def widenRowAfter (before : Bool) : List Bool → List Bool
  | [] => []
  | cell :: cells => (cell || before) :: widenRowAfter cell cells

/-- A row widened. -/
def widenRow (row : List Bool) : List Bool :=
  widenRowAfter false row

/-- A grid with every row widened. -/
def widen (grid : Grid) : Grid :=
  grid.map widenRow

/-- Widening keeps the length of a row. -/
theorem length_widenRowAfter (before : Bool) (row : List Bool) :
    (widenRowAfter before row).length = row.length := by
  induction row generalizing before with
  | nil => rfl
  | cons cell cells ih => simp [widenRowAfter, ih]

/-- Widening keeps the length of a row. -/
@[simp] theorem length_widenRow (row : List Bool) : (widenRow row).length = row.length :=
  length_widenRowAfter false row

end PixelFont.Grid
