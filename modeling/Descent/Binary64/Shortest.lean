/-
# Shortest decimals

Among the decimals that round to a given double, the one with the fewest digits,
and of several with as few the nearest. A decimal is searched on coarser grids
first; on each grid only the two neighbours of the double can be nearest to it.
-/

import Descent.Binary64.Basic

namespace Descent.Binary64

/-- A decimal: a whole number times a power of ten. -/
structure Decimal where
  digits : Nat
  exponent : Int

/-- The reals that round to a positive double, in units of a quarter of its last
place: the double itself, the two ends, and whether the ends belong to it. -/
structure Rounding where
  centre : Nat
  low : Nat
  high : Nat
  closed : Bool
  /-- The unit is two to this power. -/
  exponent : Int

/-- The reals that round to `mantissa` times two to the `exponent`. Below a power
of two the places are half as wide, unless the exponent is the least. -/
def Rounding.of (mantissa : Nat) (exponent : Int) : Rounding where
  centre := 4 * mantissa
  low := if mantissa = twoTo 52 && exponent ≠ -1074 then 4 * mantissa - 1 else 4 * mantissa - 2
  high := 4 * mantissa + 2
  closed := mantissa % 2 = 0
  exponent := exponent - 2

/-- The factors by which a count of units and a count of grid steps of ten to the
`power` become counts of one common unit. -/
def commonUnit (exponent power : Int) : Nat × Nat :=
  (twoTo exponent.toNat * tenTo (-power).toNat, twoTo (-exponent).toNat * tenTo power.toNat)

/-- The best decimal on the grid of multiples of ten to the `power`: the nearer of
the two neighbours that round to the double, the even one on a tie. -/
def Rounding.onGrid? (r : Rounding) (power : Int) : Option Decimal :=
  let (unit, step) := commonUnit r.exponent power
  let centre := r.centre * unit
  let low := r.low * unit
  let high := r.high * unit
  let inside (k : Nat) : Bool :=
    if r.closed then low ≤ k * step && k * step ≤ high
    else low < k * step && k * step < high
  let below := centre / step
  let above := below + 1
  match inside below, inside above with
  | true, true => some ⟨nearest centre step, power⟩
  | true, false => some ⟨below, power⟩
  | false, true => some ⟨above, power⟩
  | false, false => none

/-- A power of ten above any number of the given number of binary places. -/
def topPower (mantissa : Nat) (exponent : Int) : Int :=
  ((Nat.log2 mantissa + 1 : Int) + exponent) * 30103 / 100000 + 1

/-- The shortest decimal of a positive finite double. Seventeen digits always
suffice, so the search does not run out of grids. -/
def shortest (mantissa : Nat) (exponent : Int) : Decimal :=
  let top := topPower mantissa exponent
  let found := (List.range 22).findSome? fun (k : Nat) =>
    (Rounding.of mantissa exponent).onGrid? (top - k)
  found.getD ⟨mantissa, 0⟩

end Descent.Binary64
