/-
# Parsing whole inputs

A parse succeeds if the parser succeeds and consumes the whole input. Otherwise
it fails at the furthest offset reached, with everything that was expected there,
and the failure is written to the log.
-/

import Descent.Parser.Run

namespace Descent

/-- A failed parse. -/
structure Failure where
  position : Position
  expected : List String
  deriving DecidableEq

namespace Failure

/-- The record of a failed parse. -/
def record (f : Failure) : String :=
  "parse failed at " ++ f.position.describe ++ ", expected "
    ++ (Value.list (f.expected.map .str)).written

end Failure

/-- A failed parse together with the input it is about. -/
structure ParseError where
  input : Text
  failure : Failure

namespace ParseError

/-- The message of a failed parse. -/
def message (e : ParseError) (style : Style) : String :=
  Diagnostic.formatError e.input e.failure.position e.failure.expected style

end ParseError

/-- The result of parsing a whole input. -/
inductive Outcome
  | success (v : Value)
  | failure (f : Failure)

namespace Parser

/-- Parse a whole input. -/
def parse (budget : Nat) (p : Parser) (input : Text) : Run Outcome := do
  let reply ← (p.skip .eof).run budget input 0
  if reply.status then return .success reply.value
  else
    let position ← Run.ofExcept (Position.locate input reply.furthest)
    let failure : Failure := ⟨position, reply.expectedList⟩
    Run.record .debug .parsing failure.record
    return .failure failure

/-- Parse a whole input and answer with the value or else with an error. -/
def parseValue (budget : Nat) (p : Parser) (input : Text) : Run (Except ParseError Value) := do
  match ← p.parse budget input with
  | .success v => return .ok v
  | .failure f => return .error ⟨input, f⟩

/-- Parse a whole input and answer with both what there is of a value and what
there is of an error. -/
def parsePair (budget : Nat) (p : Parser) (input : Text) :
    Run (Option Value × Option ParseError) := do
  match ← p.parse budget input with
  | .success v => return (some v, none)
  | .failure f => return (none, some ⟨input, f⟩)

/-- What is shown of a parse of a whole input: the value, or the message. -/
def parseShown (budget : Nat) (p : Parser) (input : Text) : Run String := do
  match ← p.parsePair budget input with
  | (_, some e) => return e.message {} ++ "\n"
  | (v, none) => return (v.getD .null).shown ++ "\n"

end Parser

/-- A budget far above what any input at hand needs. -/
def defaultBudget : Nat :=
  1000000

end Descent
