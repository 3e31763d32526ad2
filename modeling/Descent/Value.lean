/-
# Values

The values that parsers yield. Which kinds of value a parser yields is decided
by the grammar it is written for, so there is one type for all of them. Functions
are values too: a parser may yield one that a later step applies.
-/

import Descent.Position

namespace Descent

/-- The functions that a grammar can name. -/
inductive Callback
  | identity
  | integer
  | length
  | negate
  | increment
  | double
  | join
  | reverse
  | pair
  | toNull
  | wrap
  | dictionary
  | note
  | boom
  | adder
  | add
  | subtract
  | multiply
  | power
  | parenthesize
  | tuple2
  | list
  | concat
  | countArguments
  | divide
  | operation
  deriving DecidableEq

/-- A value that a parser yields. -/
inductive Value
  | null
  | bool (b : Bool)
  | int (n : Int)
  | float (x : Float)
  | str (s : String)
  | list (items : List Value)
  | tuple (items : List Value)
  | dict (entries : List (Value × Value))
  | position (p : Position)
  | mark (start : Position) (value : Value) (stop : Position)
  | function (f : Callback)
  /-- The function that adds its argument to a value held back earlier. -/
  | adding (x : Value)

instance : Inhabited Value := ⟨.null⟩

/-- The value of a stretch of text. -/
def Value.text (s : Text) : Value :=
  .str (String.ofList s)

/-- The items of a list, and none for any other value. -/
def Value.items : Value → List Value
  | .list xs => xs
  | _ => []

theorem Value.items_list (xs : List Value) : (Value.list xs).items = xs := rfl

end Descent
