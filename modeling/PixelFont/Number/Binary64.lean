import PixelFont.Number.Rounding

/-!
Binary floating-point numbers of 64 bits, by their values: a finite number is a sign, a mantissa
and a binary exponent. Every operation is exact arithmetic on fractions followed by one rounding
to the nearest number with 53 binary digits, ties to even, so the module also reads decimals and
writes them: with a fixed number of places, or with the fewest digits that read back.
-/

set_option autoImplicit false

namespace PixelFont.Number

/-- A binary floating-point number of 64 bits. -/
inductive Binary64 where
  /-- The number `± mantissa * 2 ^ exponent`. -/
  | finite (negative : Bool) (mantissa : Nat) (exponent : Int)
  | infinite (negative : Bool)
  | nan
  deriving DecidableEq, Repr

/-- A fraction with a sign of its own, so that zero has two forms. -/
structure Fraction where
  negative : Bool
  numerator : Nat
  denominator : Nat
  deriving DecidableEq, Repr

namespace Fraction

/-- An integer as a fraction. -/
def ofInt (number : Int) : Fraction :=
  ⟨number < 0, number.natAbs, 1⟩

/-- The integer above the fraction bar, with its sign. -/
def signedNumerator (x : Fraction) : Int :=
  if x.negative then -x.numerator else x.numerator

/-- The sum of two fractions; a sum of zero counts as positive. -/
def add (x y : Fraction) : Fraction :=
  let total := x.signedNumerator * y.denominator + y.signedNumerator * x.denominator
  ⟨total < 0, total.natAbs, x.denominator * y.denominator⟩

/-- The product of two fractions. -/
def mul (x y : Fraction) : Fraction :=
  ⟨x.negative != y.negative, x.numerator * y.numerator, x.denominator * y.denominator⟩

/-- The fraction over a positive number. -/
def divNat (x : Fraction) (divisor : Nat) : Fraction :=
  { x with denominator := x.denominator * divisor }

/-- Whether the fraction is less than an integer. -/
def ltInt (x : Fraction) (bound : Int) : Bool :=
  x.signedNumerator < bound * x.denominator

/-- The greatest integer at or below the fraction. -/
def floor (x : Fraction) : Int :=
  Int.fdiv x.signedNumerator x.denominator

/-- The fraction with the given number of decimal places, rounded to the nearest and to the even
one of two. The sign stays where a negative value rounds to zero. -/
def fixed (places : Nat) (x : Fraction) : String :=
  let scaled := roundHalfEven (x.numerator * Nat.pow 10 places) x.denominator
  let whole := toString (scaled / Nat.pow 10 places)
  let part := (toString (scaled % Nat.pow 10 places)).toList
  let sign := if x.negative then "-" else ""
  if places = 0 then sign ++ whole
  else sign ++ whole ++ "." ++ String.ofList (List.replicate (places - part.length) '0' ++ part)

end Fraction

namespace Binary64

/-- The least exponent of a finite number. -/
def leastExponent : Int := -1074

/-- The value of a finite number as a fraction. -/
def toFraction? : Binary64 → Option Fraction
  | finite negative mantissa exponent =>
    some ⟨negative, mantissa * Nat.pow 2 exponent.toNat, Nat.pow 2 (-exponent).toNat⟩
  | infinite _ => none
  | nan => none

/-- The exponent that leaves 53 binary digits before the point of a positive quotient, or the
least exponent where that is greater. -/
def exponentOf (numerator denominator : Nat) : Int :=
  let guess : Int := (Nat.log2 numerator : Int) - Nat.log2 denominator
  let reached := denominator * Nat.pow 2 guess.toNat ≤ numerator * Nat.pow 2 (-guess).toNat
  max leastExponent ((if reached then guess else guess - 1) - 52)

/-- The number nearest to a fraction, the one with the even mantissa of two. Beyond the greatest
finite number stands the infinite one. -/
def ofFraction (x : Fraction) : Binary64 :=
  if x.numerator = 0 then finite x.negative 0 leastExponent
  else
    let exponent := exponentOf x.numerator x.denominator
    let mantissa := roundHalfEven (x.numerator * Nat.pow 2 (-exponent).toNat)
      (x.denominator * Nat.pow 2 exponent.toNat)
    let (mantissa, exponent) :=
      if mantissa = Nat.pow 2 53 then (Nat.pow 2 52, exponent + 1) else (mantissa, exponent)
    if exponent > 971 then infinite x.negative else finite x.negative mantissa exponent

/-- The number nearest to `± mantissa * 10 ^ exponent`. An exponent that is out of all reach is
decided without computing the power. -/
def ofDecimal (negative : Bool) (mantissa : Nat) (exponent : Int) : Binary64 :=
  let size : Int := (Nat.toDigits 10 mantissa).length + exponent
  if mantissa = 0 ∨ size < -400 then finite negative 0 leastExponent
  else if size > 400 then infinite negative
  else ofFraction ⟨negative, mantissa * Nat.pow 10 exponent.toNat, Nat.pow 10 (-exponent).toNat⟩

/-- The number nearest to an integer. -/
def ofInt (number : Int) : Binary64 :=
  ofFraction (Fraction.ofInt number)

/-- The integer that the number equals, if it equals one. -/
def toInt? (x : Binary64) : Option Int :=
  match x.toFraction? with
  | some fraction =>
    if fraction.numerator % fraction.denominator = 0 then
      some (fraction.signedNumerator / fraction.denominator)
    else none
  | none => none

/-- Whether the number is zero, of either sign. -/
def isZero : Binary64 → Bool
  | finite _ mantissa _ => mantissa == 0
  | _ => false

/-- Whether the number is less than zero. -/
def isNegative : Binary64 → Bool
  | finite negative mantissa _ => negative && mantissa != 0
  | infinite negative => negative
  | nan => false

/-- Whether the number is greater than zero. -/
def isPositive : Binary64 → Bool
  | finite negative mantissa _ => !negative && mantissa != 0
  | infinite negative => !negative
  | nan => false

/-- An operation on finite numbers by the operation on their values; where a value is not finite
the result is not a number. -/
def lift (operation : Fraction → Fraction → Fraction) (x y : Binary64) : Binary64 :=
  match x.toFraction?, y.toFraction? with
  | some a, some b => ofFraction (operation a b)
  | _, _ => nan

/-- The number of opposite sign. -/
def neg : Binary64 → Binary64
  | finite negative mantissa exponent => finite (!negative) mantissa exponent
  | infinite negative => infinite (!negative)
  | nan => nan

/-- The sum of two numbers. An infinite number stays what it is, unless the opposite one is added
to it. -/
def add (x y : Binary64) : Binary64 :=
  match x, y with
  | infinite first, infinite second => if first = second then infinite first else nan
  | infinite negative, finite .. => infinite negative
  | finite .., infinite negative => infinite negative
  | _, _ => lift Fraction.add x y

/-- The difference of two numbers. -/
def sub (x y : Binary64) : Binary64 :=
  x.add y.neg

/-- The product of two numbers. -/
def mul : Binary64 → Binary64 → Binary64 :=
  lift Fraction.mul

/-- The number over a positive number. -/
def divNat (x : Binary64) (divisor : Nat) : Binary64 :=
  match x.toFraction? with
  | some value => ofFraction (value.divNat divisor)
  | none => x

/-- The number with integers added to it one by one, every integer being rounded to a number
first; nothing where an integer is beyond the greatest finite number. -/
def addInts? (x : Binary64) : List Int → Option Binary64
  | [] => some x
  | number :: numbers =>
    match ofInt number with
    | finite negative mantissa exponent =>
      addInts? (x.add (finite negative mantissa exponent)) numbers
    | _ => none

/-- The number with the given number of decimal places. -/
def fixed (places : Nat) : Binary64 → String
  | infinite negative => if negative then "-inf" else "inf"
  | nan => "nan"
  | finite negative mantissa exponent =>
    let value : Fraction :=
      ⟨negative, mantissa * Nat.pow 2 exponent.toNat, Nat.pow 2 (-exponent).toNat⟩
    value.fixed places

/-- The decimal exponent of a positive quotient: the greatest power of ten at or below it. -/
def decimalExponent (numerator denominator : Nat) : Int :=
  let guess : Int := (Nat.toDigits 10 numerator).length - (Nat.toDigits 10 denominator).length
  let reached := denominator * Nat.pow 10 guess.toNat ≤ numerator * Nat.pow 10 (-guess).toNat
  if reached then guess else guess - 1

/-- The decimal `digits * 10 ^ exponent` with as many digits as asked for that reads back as the
given positive number, if one does: of the two neighbours of the value on that decimal grid the
nearer, or the even one of two equally near. -/
def readingBack? (x : Binary64) (value : Fraction) (count : Nat) : Option (Nat × Int) :=
  let exponent := decimalExponent value.numerator value.denominator - (count - 1 : Nat)
  let numerator := value.numerator * Nat.pow 10 (-exponent).toNat
  let denominator := value.denominator * Nat.pow 10 exponent.toNat
  let below := numerator / denominator
  let nearest := roundHalfEven numerator denominator
  let other := if nearest = below then below + 1 else below
  let readsBack (digits : Nat) : Bool := ofDecimal false digits exponent == x
  if readsBack nearest then some (nearest, exponent)
  else if readsBack other then some (other, exponent)
  else none

/-- The fewest decimal digits that read back as a positive number, with their exponent. -/
def shortest (x : Binary64) (value : Fraction) : Nat × Int :=
  ((List.range' 1 17).findSome? (readingBack? x value)).getD (0, 0)

/-- Digits with a decimal point after the given number of them, which is from one up to their
number or beyond, with a zero for an empty part. -/
def pointed (digits : List Char) (place : Int) : List Char :=
  if place ≤ 0 then '0' :: '.' :: (List.replicate (-place).toNat '0' ++ digits)
  else
    let padding := List.replicate (place.toNat - digits.length) '0'
    let fraction := digits.drop place.toNat
    digits.take place.toNat ++ padding ++ '.' :: (if fraction.isEmpty then ['0'] else fraction)

/-- The number with the fewest digits that read back: positional from one ten-thousandth up to
below ten to the sixteenth, with an exponent of at least two digits elsewhere. -/
def toText (x : Binary64) : String :=
  match x with
  | infinite negative => if negative then "-inf" else "inf"
  | nan => "nan"
  | finite negative mantissa exponent =>
    let sign := if negative then "-" else ""
    if mantissa = 0 then sign ++ "0.0"
    else
      let value : Fraction :=
        ⟨false, mantissa * Nat.pow 2 exponent.toNat, Nat.pow 2 (-exponent).toNat⟩
      let (digits, power) := shortest (finite false mantissa exponent) value
      let written := Nat.toDigits 10 digits
      let numeral := (written.reverse.dropWhile (· == '0')).reverse
      let place := written.length + power
      if -4 < place ∧ place ≤ 16 then sign ++ String.ofList (pointed numeral place)
      else
        let point := place - 1
        let size := Nat.toDigits 10 point.natAbs
        let tail := numeral.drop 1
        sign ++ String.ofList (numeral.take 1 ++ (if tail.isEmpty then [] else '.' :: tail) ++
          'e' :: (if point < 0 then '-' else '+') ::
          (List.replicate (2 - size.length) '0' ++ size))

example : (ofDecimal false 125 (-2)).toText = "1.25" := by decide +kernel

example : (ofDecimal false 1 23).toText = "1e+23" := by decide +kernel

example : (ofDecimal false 105 (-2)).fixed 1 = "1.1" := by decide +kernel

end Binary64

end PixelFont.Number
