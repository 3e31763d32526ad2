/-
# Numbers among values

Integers are unbounded and doubles are rounded. Where the two meet, comparison is
exact, and arithmetic turns the integer into a double, which fails if it is too
large for one.
-/

import Descent.Binary64.Written
import Descent.Call

namespace Descent

/-- A number: an integer or a double. -/
inductive Number
  | int (n : Int)
  | float (x : Float)

namespace Number

/-- Where a number stands on the line extended by both infinities. -/
inductive Place
  | least
  | ratio (num : Int) (den : Nat)
  | greatest

/-- The place of a number; the double that is no number has none. -/
def place? : Number → Option Place
  | .int n => some (.ratio n 1)
  | .float x =>
      match Binary64.ratio? x with
      | some (num, den) => some (.ratio num den)
      | none =>
          match Binary64.magnitude x with
          | .infinite => some (if Binary64.isNegative x then .least else .greatest)
          | _ => none

/-- The order of places. -/
def Place.before : Place → Place → Bool
  | .least, .least => false
  | .least, _ => true
  | .ratio .., .least => false
  | .ratio n d, .ratio m e => n * e < m * d
  | .ratio .., .greatest => true
  | .greatest, _ => false

/-- Whether one number is less than another. Nothing is less or greater than the
double that is no number. -/
def less (a b : Number) : Bool :=
  match a.place?, b.place? with
  | some p, some q => p.before q
  | _, _ => false

/-- Whether two numbers are equal, whatever their kinds. -/
def same (a b : Number) : Bool :=
  match a.place?, b.place? with
  | some p, some q => !p.before q && !q.before p
  | _, _ => false

/-- The written form of a number. -/
def written : Number → String
  | .int n => toString n
  | .float x => Binary64.write Binary64.plain x

/-- A number as a double. -/
def toFloat : Number → Except Fault Float
  | .float x => .ok x
  | .int n =>
      match Binary64.ofInt? n with
      | some x => .ok x
      | none => .error .tooLarge

/-- The value of a number. -/
def toValue : Number → Value
  | .int n => .int n
  | .float x => .float x

/-- The number that a value is; truth values count as one and zero. -/
def ofValue? : Value → Option Number
  | .int n => some (.int n)
  | .float x => some (.float x)
  | .bool b => some (.int (if b then 1 else 0))
  | _ => none

theorem ofValue?_toValue (a : Number) : ofValue? a.toValue = some a := by
  cases a <;> rfl

/-- Apply an operation to two numbers: exactly to integers, and to doubles as
soon as one of them is a double. -/
def combine (exact : Int → Int → Int) (rounded : Float → Float → Float) (a b : Number) :
    Except Fault Number :=
  match a, b with
  | .int m, .int n => .ok (.int (exact m n))
  | _, _ => do return .float (rounded (← a.toFloat) (← b.toFloat))

/-- The quotient of two numbers as a double. That of two integers is the double
nearest to the exact quotient. -/
def divide (a b : Number) : Except Fault Number :=
  if b.same (.int 0) then .error .divisionByZero
  else
    match a, b with
    | .int m, .int n =>
        match Binary64.ofRatio? (decide (m < 0) != decide (n < 0)) m.natAbs n.natAbs with
        | some x => .ok (.float x)
        | none => .error .tooLarge
    | _, _ => do return .float ((← a.toFloat) / (← b.toFloat))

/-- A number with the opposite sign. -/
def negate : Number → Number
  | .int n => .int (-n)
  | .float x => .float (-x)

/-- A number raised to a power: exact for whole exponents from zero on. -/
def power (a b : Number) : Except Fault Number :=
  match a, b with
  | .int m, .int n =>
      if 0 ≤ n then .ok (.int (Int.pow m n.toNat))
      else do return .float (Float.pow (← a.toFloat) (← b.toFloat))
  | _, _ => do return .float (Float.pow (← a.toFloat) (← b.toFloat))

end Number

end Descent
