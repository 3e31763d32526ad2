/-
# Double-precision numbers

A finite double is a whole number times a power of two. This module takes a
double apart into these two and finds the double nearest to a quotient of whole
numbers, which serves division, conversion of large numbers and decimal input.
-/

namespace Descent.Binary64

/-- A power of two. -/
def twoTo (n : Nat) : Nat :=
  Nat.pow 2 n

/-- A power of ten. -/
def tenTo (n : Nat) : Nat :=
  Nat.pow 10 n

/-- What the bits of a double say, the sign left aside: no number, infinite, or
the mantissa times two to the exponent. -/
inductive Magnitude
  | nan
  | infinite
  | finite (mantissa : Nat) (exponent : Int)

/-- Whether the sign bit is set. -/
def isNegative (x : Float) : Bool :=
  x.toBits.toNat / twoTo 63 == 1

/-- Take a double apart. -/
def magnitude (x : Float) : Magnitude :=
  let bits : Nat := x.toBits.toNat
  let fraction : Nat := bits % twoTo 52
  let biased : Nat := bits / twoTo 52 % twoTo 11
  if biased = twoTo 11 - 1 then
    if fraction = 0 then .infinite else .nan
  else if biased = 0 then .finite fraction (-1074)
  else .finite (twoTo 52 + fraction) ((biased : Int) - 1075)

/-- A finite double as a fraction, with a positive denominator. -/
def ratio? (x : Float) : Option (Int × Nat) :=
  match magnitude x with
  | .finite mantissa exponent =>
      let sign : Int := if isNegative x then -1 else 1
      if 0 ≤ exponent then some (sign * (mantissa * twoTo exponent.toNat), 1)
      else some (sign * mantissa, twoTo (-exponent).toNat)
  | _ => none

/-- The whole number nearest to a fraction; of two equally near the even one. -/
def nearest (num den : Nat) : Nat :=
  let quotient := num / den
  let twice := 2 * (num % den)
  if twice > den || (twice = den && quotient % 2 = 1) then quotient + 1 else quotient

/-- The bits of positive infinity. -/
def infinityBits : Nat :=
  2047 * twoTo 52

/-- The bits of the double nearest to a fraction with a positive denominator, ties
going to the even mantissa; the bits of infinity, or more, if it is too large.
The exponent is chosen so that the mantissa has fifty-three binary places, or is
the least there is. -/
def nearestBits (num den : Nat) : Nat :=
  if num = 0 then 0 else
    let guess : Int := (Nat.log2 num : Int) - Nat.log2 den - 53
    let scaled (exponent : Int) : Nat × Nat :=
      if 0 ≤ exponent then (num, den * twoTo exponent.toNat)
      else (num * twoTo (-exponent).toNat, den)
    let (n, d) := scaled guess
    let exponent := max (-1074) (if twoTo 53 ≤ n / d then guess + 1 else guess)
    let (n, d) := scaled exponent
    (exponent + 1074).toNat * twoTo 52 + nearest n d

/-- The double with the given bits and sign. -/
def signed (negative : Bool) (bits : Nat) : Float :=
  Float.ofBits (UInt64.ofNat (if negative then twoTo 63 + bits else bits))

/-- The double nearest to a fraction, infinite if it is too large. -/
def ofRatio (negative : Bool) (num den : Nat) : Float :=
  signed negative (min (nearestBits num den) infinityBits)

/-- The double nearest to a fraction, or nothing if that is infinite. -/
def ofRatio? (negative : Bool) (num den : Nat) : Option Float :=
  let bits := nearestBits num den
  if bits < infinityBits then some (signed negative bits) else none

/-- The double nearest to an integer, or nothing if the integer is too large. -/
def ofInt? (n : Int) : Option Float :=
  ofRatio? (n < 0) n.natAbs 1

/-- The double nearest to a whole number times a power of ten. Exponents far
outside the range of doubles are settled without computing the power. -/
def ofDecimal (negative : Bool) (digits : Nat) (exponent : Int) : Float :=
  let places : Int := Nat.log2 digits
  if digits = 0 then signed negative 0
  else if 310 < exponent then signed negative infinityBits
  else if exponent < -400 - places then signed negative 0
  else if 0 ≤ exponent then ofRatio negative (digits * tenTo exponent.toNat) 1
  else ofRatio negative digits (tenTo (-exponent).toNat)

end Descent.Binary64
