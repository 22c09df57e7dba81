import PixelFont.Raster.Span

/-!
The cover of a grid by rectangles: the maximal runs of filled cells of every row, stacked. The
cover is exact, and it is determined by the grid, though it need not be the smallest one. Only a
rectangular grid has one.
-/

set_option autoImplicit false

namespace PixelFont.Grid

/-- The first row, counted from the given number, whose length is not the expected one. -/
def findRagged? (expected : Nat) : Nat → Grid → Option RasterError
  | _, [] => none
  | number, row :: rows =>
    if row.length = expected then findRagged? expected (number + 1) rows
    else some (.raggedRow number row.length expected)

/-- The rectangles that cover the filled cells of a grid. -/
def compact (grid : Grid) : Except RasterError (List Rectangle) :=
  match findRagged? grid.width 0 grid with
  | some error => .error error
  | none => Span.stack (Span.ofGrid grid)

end PixelFont.Grid
