/-
# Replies

The reply of a parser at an offset says how it ended and carries the furthest
failure met on the way. Merging an older reply into a newer one keeps how the
newer one ended and combines the two failures: the further one wins, and at the
same offset what both expected is united.
-/

import Descent.Diagnostic
import Descent.Value

namespace Descent

/-- The outcome of a parser at one offset. The index and the value have a meaning
only for a success. The furthest failure is at `-1` if there was none. -/
structure Reply where
  status : Bool
  index : Int
  value : Value
  furthest : Int
  expected : Expectation

namespace Reply

/-- A success that met no failure. -/
def ok (index : Int) (value : Value) : Reply :=
  ⟨true, index, value, -1, ∅⟩

/-- A failure at an offset. -/
def error (index : Int) (description : String) : Reply :=
  ⟨false, -1, .null, index, .singleton description⟩

/-- Merge an older reply into a newer one. -/
def mergeWith (newer older : Reply) : Reply :=
  if older.furthest < newer.furthest then newer
  else if newer.furthest = older.furthest then
    { newer with expected := newer.expected ∪ older.expected }
  else { newer with furthest := older.furthest, expected := older.expected }

/-- Merge the older context, if there is one, into a newer reply. -/
def merge (newer : Reply) : Option Reply → Reply
  | none => newer
  | some older => newer.mergeWith older

/-- What was expected, in the order of messages. -/
def expectedList (r : Reply) : List String :=
  r.expected.sorted

/-- Fold further replies as older context into a first one; all results in turn. -/
def mergeOlder : Option Reply → List (Option Reply) → List (Option Reply)
  | _, [] => []
  | acc, r :: rest =>
      let next := match acc with
        | some a => some (a.merge r)
        | none => none
      next :: mergeOlder next rest

/-- Fold further replies as newer ones over a first context; all results in turn. -/
def mergeNewer : Option Reply → List (Option Reply) → List (Option Reply)
  | _, [] => []
  | acc, r :: rest =>
      let next := match r with
        | some newer => some (newer.merge acc)
        | none => none
      next :: mergeNewer next rest

end Reply

end Descent
