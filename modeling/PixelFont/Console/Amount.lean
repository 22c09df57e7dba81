import PixelFont.Number.Binary64

/-!
Amounts in words: how long something took, how large a file is, and counts with their digits in
groups of three. Decimals are rounded to the nearest, and to the even one of two.
-/

set_option autoImplicit false

namespace PixelFont.Amount

open Number

/-- The number of seconds in a minute. -/
def minute : Nat := 60

/-- The whole minutes of a fraction of seconds. -/
def wholeMinutes (seconds : Fraction) : Int :=
  (seconds.divNat minute).floor

/-- The seconds that a fraction of seconds has over its whole minutes. -/
def secondsOver (seconds : Fraction) : Binary64 :=
  Binary64.ofFraction (seconds.add (Fraction.ofInt (-(wholeMinutes seconds * minute))))

/-- A number of seconds in words: in milliseconds below one second, in seconds below one minute,
and in minutes and seconds from there on. -/
def duration (seconds : Binary64) : String :=
  match seconds.toFraction? with
  | none => seconds.fixed 1 ++ "s"
  | some value =>
    if value.ltInt 1 then (seconds.mul (Binary64.ofInt 1000)).fixed 0 ++ "ms"
    else if value.ltInt minute then seconds.fixed 1 ++ "s"
    else toString (wholeMinutes value) ++ "m " ++ (secondsOver value).fixed 1 ++ "s"

/-- The seconds between two points of time, none where either is not known. The zero of time
counts as not known. -/
def elapsed (start finish : Option Binary64) : Binary64 :=
  match start, finish with
  | some first, some last =>
    if first.isZero || last.isZero then Binary64.ofInt 0 else last.sub first
  | _, _ => Binary64.ofInt 0

/-- A number of milliseconds in words. -/
def milliseconds (amount : Binary64) : String :=
  amount.fixed 2 ++ "ms"

/-- A number of bytes in words. -/
def bytes (size : Nat) : String :=
  if size < 1024 then toString size ++ " B"
  else if size < 1024 * 1024 then ((Binary64.ofInt size).divNat 1024).fixed 0 ++ " KB"
  else ((Binary64.ofInt size).divNat (1024 * 1024)).fixed 1 ++ " MB"

/-- The size of a file in words, where there may be no file. -/
def fileSize : Option Nat → String
  | some size => bytes size
  | none => "unknown"

/-- What stands for the size of a file that was not to be written. -/
def notWritten : String := "not written"

/-- Digits, the last first, with a comma after every third that another one follows. -/
def groupDigits : List Char → List Char
  | first :: second :: third :: digit :: digits =>
    first :: second :: third :: ',' :: groupDigits (digit :: digits)
  | digits => digits

/-- A count with its digits in groups of three. -/
def grouped (count : Nat) : String :=
  String.ofList (groupDigits (toString count).toList.reverse).reverse

example : grouped 1234567 = "1,234,567" := by decide +kernel

example : grouped 100 = "100" := by decide +kernel

example : bytes 1536 = "2 KB" := by decide +kernel

end PixelFont.Amount
