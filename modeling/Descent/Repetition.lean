/-
# Counts of repetitions

A repetition has a least count and, unless it is unbounded, a greatest one. The
bounds are given as numbers: a fraction stands for the next whole count, and a
bound that is no number allows nothing beyond the least count. Turns that must be
made without end are no repetition.
-/

import Descent.Value.Number

namespace Descent

/-- How often something is repeated; nothing for the greatest count means without
end. -/
structure Repetition where
  least : Nat
  most : Option Nat
  deriving DecidableEq

namespace Repetition

/-- Any number of times. -/
def any : Repetition :=
  ⟨0, none⟩

/-- The number of turns made until a count is no longer below a bound. Every count is
below an infinite bound, and none is below the double that is no number. -/
def turnsBelow (bound : Number) : Option Nat :=
  match bound.place? with
  | some (.ratio num den) => some (-((-num) / den)).toNat
  | some .greatest => none
  | _ => some 0

/-- Whether a bound is infinite. An integer too large for a double is none, but
asking is a fault. -/
def isInfinite : Number → Except Fault Bool
  | .int n =>
      match Binary64.ofInt? n with
      | some _ => .ok false
      | none => .error .tooLarge
  | .float x =>
      match Binary64.magnitude x with
      | .infinite => .ok true
      | _ => .ok false

/-- The repetition with the given bounds. The least must not be negative, nor the
greatest below it; a least count that is infinite is no count. -/
def between (least most : Number) : Except Fault Repetition :=
  if least.less (.int 0) || most.less least then
    .error (.repetitionBounds least.written most.written)
  else do
    let infinite ← isInfinite most
    match turnsBelow least with
    | some start =>
        return ⟨start, if infinite then none else (turnsBelow most).map (max start)⟩
    | none => .error .mismatch

/-- Exactly so many times. -/
def exactly (count : Number) : Except Fault Repetition :=
  between count count

/-- A count, or zero if it is negative. -/
def atLeastZero (count : Number) : Number :=
  if (Number.int 0).less count then count else .int 0

end Repetition

end Descent
