/-!
Totals: the sum of a count over the items of a list.
-/

set_option autoImplicit false

namespace PixelFont.Number

/-- The sum of a count over the items of a list. -/
def total {α : Type} (count : α → Nat) : List α → Nat
  | [] => 0
  | x :: xs => count x + total count xs

end PixelFont.Number
