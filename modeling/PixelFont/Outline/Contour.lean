import PixelFont.Number.Binary64

/-!
Contours: closed polygons in font units, the vertical axis pointing upwards. The edge from the
last point back to the first is implied. The signed area tells the direction in which a contour
is traversed, clockwise where it is negative. It is summed in floating point.
-/

set_option autoImplicit false

namespace PixelFont

open Number

/-- A point in font units. -/
structure Point where
  x : Int
  y : Int
  deriving DecidableEq, Repr

/-- The least box with sides along the axes that holds some points. -/
structure Box where
  left : Int
  bottom : Int
  right : Int
  top : Int
  deriving DecidableEq, Repr

namespace Box

/-- The box at the origin, which stands for that of no points. -/
def zero : Box :=
  ⟨0, 0, 0, 0⟩

/-- The box of one point. -/
def ofPoint (point : Point) : Box :=
  ⟨point.x, point.y, point.x, point.y⟩

/-- The least box around two boxes. -/
def union (a b : Box) : Box :=
  ⟨min a.left b.left, min a.bottom b.bottom, max a.right b.right, max a.top b.top⟩

/-- The least box around some boxes, the box at the origin where there is none. -/
def unionAll : List Box → Box
  | [] => zero
  | box :: boxes => boxes.foldl union box

end Box

/-- A direction of traversal. -/
inductive Direction where
  | clockwise
  | counterClockwise
  deriving DecidableEq, Repr

/-- Why a contour has no area in floating point. -/
inductive AreaError where
  /-- A product of coordinates is beyond the greatest finite number. -/
  | oversizedTerm
  deriving DecidableEq, Repr

/-- The wording of an error. -/
def AreaError.message : AreaError → String
  | .oversizedTerm => "int too large to convert to float"

/-- A closed polygon by its points in the order of traversal. -/
structure Contour where
  points : List Point
  deriving DecidableEq, Repr

namespace Contour

/-- The edges of a contour, the last one back to the first point. -/
def edges (contour : Contour) : List (Point × Point) :=
  contour.points.zip (contour.points.drop 1 ++ contour.points.take 1)

/-- The terms that add up to twice the signed area, two for every edge; a contour of fewer than
three points has none. -/
def areaTerms (contour : Contour) : List Int :=
  if contour.points.length < 3 then []
  else contour.edges.flatMap fun (start, stop) ↦ [start.x * stop.y, -(stop.x * start.y)]

/-- The signed area in floating point, where every term and every sum is rounded. -/
def signedArea (contour : Contour) : Except AreaError Binary64 :=
  match (Binary64.ofInt 0).addInts? contour.areaTerms with
  | some doubled => .ok (doubled.divNat 2)
  | none => .error .oversizedTerm

/-- The direction of traversal by the sign of the area in floating point; none where that is
zero. -/
def direction (contour : Contour) : Except AreaError (Option Direction) :=
  contour.signedArea.map fun area ↦
    if area.isNegative then some .clockwise
    else if area.isPositive then some .counterClockwise
    else none

/-- The least box around a contour. -/
def box (contour : Contour) : Box :=
  Box.unionAll (contour.points.map Box.ofPoint)

/-- A contour as a font stores it. One of fewer than two points is not stored; a last point that
repeats the first is left out, as the closing edge is implied. -/
def stored? (contour : Contour) : Option Contour :=
  match contour.points with
  | [] => none
  | [_] => none
  | first :: second :: points =>
    if (second :: points).getLast? = some first then
      some ⟨first :: (second :: points).dropLast⟩
    else some contour

end Contour

end PixelFont
