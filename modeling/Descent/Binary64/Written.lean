/-
# Written doubles

How a double is written: by its shortest decimal, positionally while the leading
digit stands between the fourth place after the point and the sixteenth before
it, and otherwise with an exponent of a sign and at least two digits.
-/

import Descent.Binary64.Shortest

namespace Descent.Binary64

/-- The decisions of a way to write doubles. -/
structure Format where
  /-- The least exponent of the leading digit that is written positionally. -/
  leastPlace : Int
  /-- The first exponent of the leading digit that is not. -/
  endPlace : Int
  /-- The least number of digits of an exponent. -/
  exponentDigits : Nat
  nan : String
  infinity : String

/-- The format of values: positional from `1e-4` up to, not including, `1e16`. -/
def plain : Format where
  leastPlace := -4
  endPlace := 16
  exponentDigits := 2
  nan := "nan"
  infinity := "inf"

/-- Drop the zeros at the end of the digits of a decimal. At most as many steps
are made as there are digits. -/
def stripZeros : Nat → Nat → Nat
  | 0, n => n
  | steps + 1, n => if n ≠ 0 && n % 10 = 0 then stripZeros steps (n / 10) else n

/-- Digits with the point after the given number of them, zeros filling up on
either side; a whole number keeps one zero after the point. -/
def positional (digits : List Char) (place : Int) : List Char :=
  if place ≤ 0 then '0' :: '.' :: (List.replicate (-place).toNat '0' ++ digits)
  else if digits.length ≤ place.toNat then
    digits ++ List.replicate (place.toNat - digits.length) '0' ++ ['.', '0']
  else digits.take place.toNat ++ '.' :: digits.drop place.toNat

/-- Digits with the point after the first of them and an exponent. -/
def scientific (format : Format) (digits : List Char) (exponent : Int) : List Char :=
  let mantissa := match digits with
    | [d] => [d]
    | d :: rest => d :: '.' :: rest
    | [] => []
  let power := Nat.toDigits 10 exponent.natAbs
  mantissa ++ ['e', if exponent < 0 then '-' else '+']
    ++ List.replicate (format.exponentDigits - power.length) '0' ++ power

/-- Write a decimal in a format. -/
def Decimal.write (format : Format) (d : Decimal) : List Char :=
  let all := Nat.toDigits 10 d.digits
  let leading := d.exponent + all.length - 1
  let digits := Nat.toDigits 10 (stripZeros all.length d.digits)
  if format.leastPlace ≤ leading && leading < format.endPlace then
    positional digits (leading + 1)
  else scientific format digits leading

/-- Write a double in a format. -/
def write (format : Format) (x : Float) : String :=
  let sign := if isNegative x then "-" else ""
  match magnitude x with
  | .nan => format.nan
  | .infinite => sign ++ format.infinity
  | .finite 0 _ => sign ++ "0.0"
  | .finite mantissa exponent =>
      sign ++ String.ofList ((shortest mantissa exponent).write format)

end Descent.Binary64
