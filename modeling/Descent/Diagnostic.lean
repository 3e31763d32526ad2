/-
# Diagnostics

The wording of a failed parse: what was expected, where, and what was found
there. Expectations are listed in one order, by small-letter form and then by
the text itself, so the wording depends only on which expectations there are.
-/

import Descent.Position
import Descent.Expectation
import Descent.Text.Lower

namespace Descent

/-- How much of the input a message shows, and how it marks that there is more. -/
structure Style where
  context : Int := 12
  ellipsis : String := "..."

namespace Diagnostic

/-- The order of expectations in messages. -/
def precedes (x y : String) : Bool :=
  decide (lowerCase x < lowerCase y) || (lowerCase x == lowerCase y && decide (x < y))

/-- The distinct members of a list of expectations in the order of messages. -/
def sortExpected (expected : List String) : List String :=
  Ordered.ofList precedes expected

/-- The expectations in words: a single one as it is, others as a list. -/
def formatExpected : List String → String
  | [description] => description
  | expected => "one of " ++ ", ".intercalate (sortExpected expected)

/-- What stands at the position: the end of the input, or some characters of it. -/
def formatGot (input : Text) (p : Position) (style : Style) : String :=
  if p.offset = input.length then ", got the end of the input"
  else
    let before := if 0 < p.offset then style.ellipsis else ""
    let after := if style.context < input.length - p.offset then style.ellipsis else ""
    let snippet := String.ofList (input.slice p.offset (p.offset + style.context))
    s!" at line {p.line} column {p.column}, got '{before}{snippet}{after}'"

/-- The message for a failure at a position. -/
def formatError (input : Text) (p : Position) (expected : List String) (style : Style) :
    String :=
  "expected " ++ formatExpected expected ++ formatGot input p style

end Diagnostic

/-- The members of a set of expectations in the order of messages. -/
def Expectation.sorted (e : Expectation) : List String :=
  Diagnostic.sortExpected e.toList

end Descent
