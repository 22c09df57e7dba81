import PixelFont.Raster.Rectangle

/-!
Runs of filled cells within a row, and the stacking of runs of equal place and width on
consecutive rows into rectangles. Runs are grouped by their extent in the order in which the
extents first occur; within a group the rows are put in order and cut wherever a row is not the
one after its predecessor.
-/

set_option autoImplicit false

namespace PixelFont

/-- A run of cells within a row: `left` is the column of its first cell. -/
structure Span where
  left : Int
  row : Int
  width : Int
  deriving DecidableEq, Repr

namespace Span

/-- The place and width that spans must share to be stacked. -/
def extent (span : Span) : Int × Int :=
  (span.left, span.width)

/-- The maximal runs of filled cells of a row whose first cell stands in the given column. A
filled cell extends the run that begins right after it, or is a run of its own. -/
def ofCellsFrom (row column : Int) : List Bool → List Span
  | [] => []
  | false :: cells => ofCellsFrom row (column + 1) cells
  | true :: cells =>
    match ofCellsFrom row (column + 1) cells with
    | [] => [⟨column, row, 1⟩]
    | span :: spans =>
      if span.left = column + 1 then ⟨column, row, span.width + 1⟩ :: spans
      else ⟨column, row, 1⟩ :: span :: spans

/-- The maximal runs of filled cells of a row, from left to right. -/
def ofCells (row : Int) (cells : List Bool) : List Span :=
  ofCellsFrom row 0 cells

/-- The maximal runs of filled cells of the rows of a grid whose first row has the given
number. -/
def ofRowsFrom (row : Int) : Grid → List Span
  | [] => []
  | cells :: rows => ofCells row cells ++ ofRowsFrom (row + 1) rows

/-- The maximal runs of filled cells of a grid, row by row. -/
def ofGrid (grid : Grid) : List Span :=
  ofRowsFrom 0 grid

/-- Rows in increasing order cut into piles of consecutive rows: the first row of each pile and
its height. -/
def piles : List Int → List (Int × Int)
  | [] => []
  | row :: rows =>
    match piles rows with
    | [] => [(row, 1)]
    | (next, height) :: rest =>
      if next = row + 1 then (row, height + 1) :: rest else (row, 1) :: (next, height) :: rest

/-- The distinct extents of spans in the order in which they first occur. -/
def extents (spans : List Span) : List (Int × Int) :=
  (spans.map extent).eraseDups

/-- The rows of the spans of an extent in increasing order. -/
def rowsOf (spans : List Span) (extent : Int × Int) : List Int :=
  ((spans.filter fun span ↦ span.extent == extent).map row).mergeSort

/-- The rectangles into which the spans of an extent stack. -/
def stackExtent (spans : List Span) (extent : Int × Int) : Except RasterError (List Rectangle) :=
  (piles (rowsOf spans extent)).mapM fun (top, height) ↦
    Rectangle.make extent.1 top extent.2 height

/-- The rectangles into which spans stack, extent by extent. A span without cells is an error. -/
def stack (spans : List Span) : Except RasterError (List Rectangle) := do
  let groups ← (extents spans).mapM (stackExtent spans)
  return groups.flatten

end Span

end PixelFont
