/-!
Hexadecimal numerals, as codepoints are written and read. Numerals are written with capital
digits and padded with zeros to a least width that counts the sign.
-/

set_option autoImplicit false

namespace PixelFont.Text.Hexadecimal

/-- The capital digit of a value below sixteen. -/
def digit (value : Nat) : Char :=
  if value < 10 then Char.ofNat ('0'.toNat + value) else Char.ofNat ('A'.toNat + (value - 10))

/-- The value of a digit of either case. -/
def digitValue? (c : Char) : Option Nat :=
  if '0' ≤ c ∧ c ≤ '9' then some (c.toNat - '0'.toNat)
  else if 'A' ≤ c ∧ c ≤ 'F' then some (c.toNat - 'A'.toNat + 10)
  else if 'a' ≤ c ∧ c ≤ 'f' then some (c.toNat - 'a'.toNat + 10)
  else none

/-- Whether a character is a digit of either case. -/
def isDigit (c : Char) : Bool :=
  (digitValue? c).isSome

/-- The digits of a number, the most significant first, without leading zeros. -/
def digits (value : Nat) : List Char :=
  if value < 16 then [digit value] else digits (value / 16) ++ [digit (value % 16)]
termination_by value
decreasing_by omega

/-- The number that a sequence of digits denotes; characters other than digits count as zero. -/
def value (numeral : List Char) : Nat :=
  numeral.foldl (fun total c ↦ total * 16 + (digitValue? c).getD 0) 0

/-- A number written with capital digits in at least the given width, zeros standing between
the sign and the first digit. -/
def padded (width : Nat) (number : Int) : String :=
  let sign := if number < 0 then ['-'] else []
  let numeral := digits number.natAbs
  String.ofList (sign ++ List.replicate (width - sign.length - numeral.length) '0' ++ numeral)

/-- A number written with small digits in at least the given width. -/
def paddedSmall (width : Nat) (number : Nat) : String :=
  String.ofList ((padded width number).toList.map Char.toLower)

end PixelFont.Text.Hexadecimal
