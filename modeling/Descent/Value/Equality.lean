/-
# Equality of values

Two values are the same if they have the same parts, where numbers are compared
by what they are worth and the order of the entries of a dictionary is ignored.
-/

import Descent.Value.Number

namespace Descent.Value

mutual

/-- Whether two values count as the same. -/
def same : Value → Value → Bool
  | .null, .null => true
  | .str s, .str t => s == t
  | .list xs, .list ys => sameItems xs ys
  | .tuple xs, .tuple ys => sameItems xs ys
  | .dict xs, .dict ys => xs.length == ys.length && entriesIn xs ys
  | .position p, .position q => p == q
  | .mark start value stop, .mark start' value' stop' =>
      start == start' && value.same value' && stop == stop'
  | .function f, .function g => f == g
  | v, w =>
      match Number.ofValue? v, Number.ofValue? w with
      | some a, some b => a.same b
      | _, _ => false

/-- Whether two lists of values count as the same, item by item. -/
def sameItems : List Value → List Value → Bool
  | [], [] => true
  | x :: xs, y :: ys => x.same y && sameItems xs ys
  | _, _ => false

/-- Whether every entry of the first list has its like in the second. -/
def entriesIn : List (Value × Value) → List (Value × Value) → Bool
  | [], _ => true
  | (key, value) :: entries, other =>
      (other.any fun (key', value') => key.same key' && value.same value')
        && entriesIn entries other

end

/-- Whether a character is one of those a value holds. -/
def holds (v : Value) (c : Char) : Except Fault Bool :=
  match v with
  | .str s => .ok (s.toList.contains c)
  | .list xs | .tuple xs => .ok (xs.any (·.same (.text [c])))
  | .dict entries => .ok (entries.any (·.1.same (.text [c])))
  | _ => .error .mismatch

/-- Set the value of a key. A key that is there already keeps its place. -/
def putEntry (key value : Value) : List (Value × Value) → List (Value × Value)
  | [] => [(key, value)]
  | (k, v) :: entries =>
      if k.same key then (k, value) :: entries else (k, v) :: putEntry key value entries

/-- The dictionary of a list of pairs, taken in order. -/
def dictOf (pairs : List (Value × Value)) : List (Value × Value) :=
  pairs.foldl (fun entries (key, value) => putEntry key value entries) []

end Descent.Value
