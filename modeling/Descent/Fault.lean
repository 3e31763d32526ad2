/-
# Faults

A fault ends a construction or a run without a reply. Each constructor is one
cause; the wording of all of them stands in `Fault.message`.
-/

namespace Descent

/-- What is wrong with the inside of a quoted token. -/
inductive TokenProblem
  | escape
  | codeEscape
  | control
  deriving DecidableEq

/-- The cause that ends a construction or a run without a reply. -/
inductive Fault
  /-- A position was asked for at an offset outside the input. -/
  | outsideInput (offset : Int) (length : Nat)
  /-- A repetition was given bounds that no count can meet. -/
  | repetitionBounds (least most : String)
  /-- A text that should be a number is none; it is given quoted. -/
  | notInteger (quoted : String)
  /-- A pattern has no group of that number. -/
  | noGroup (pattern : String) (group : Int)
  /-- A pattern has no group of that name, which is given quoted. -/
  | noGroupNamed (pattern : String) (quoted : String)
  /-- Flags were given for a pattern that is compiled already. -/
  | flagsForCompiled
  /-- A pattern is not well formed. -/
  | malformedPattern
  /-- An unbounded repetition made a turn that consumed nothing. -/
  | idleRepetition (offset : Int)
  /-- A repetition up to an end made a turn that consumed nothing. -/
  | idleTurn (offset : Int)
  /-- A reference was to be bound to itself. -/
  | selfReference
  /-- A reference was to be bound again after a run went through it. -/
  | rebound
  /-- A sequence was to be mapped without a mapping function. -/
  | missingFunction
  /-- A function or predicate gave up with a message. -/
  | raised (text : String)
  /-- A number was divided by zero. -/
  | divisionByZero
  /-- A number is too large for a double. -/
  | tooLarge
  /-- The inside of a quoted token is malformed at that offset of the token. -/
  | malformedToken (problem : TokenProblem) (offset : Nat)
  /-- A function was applied to arguments it has no meaning for. -/
  | mismatch
  /-- A character was read where there is none. -/
  | noCharacter
  /-- A name stands for nothing. -/
  | unknownName (name : String)
  deriving DecidableEq

/-- What a token problem is called. -/
def TokenProblem.text : TokenProblem → String
  | .escape => "Invalid \\escape"
  | .codeEscape => "Invalid \\uXXXX escape"
  | .control => "Invalid control character at"

/-- The wording of a fault, for those that have one. A problem inside a token is
always on the token's first line, since a line break there is one itself. -/
def Fault.message : Fault → Option String
  | .outsideInput offset length =>
      some s!"offset {offset} is outside the input (length {length})"
  | .repetitionBounds least most => some s!"invalid repetition bounds: {least}..{most}"
  | .notInteger quoted => some s!"invalid literal for int() with base 10: {quoted}"
  | .noGroup pattern group => some s!"{pattern} has no group {group}"
  | .noGroupNamed pattern quoted => some s!"{pattern} has no group named {quoted}"
  | .flagsForCompiled => some "cannot process flags argument with a compiled pattern"
  | .idleRepetition offset =>
      some s!"repeated parser succeeded without consuming input at offset {offset}"
  | .idleTurn offset =>
      some s!"many_till: parser succeeded without consuming input at offset {offset}"
  | .selfReference => some "a reference cannot be bound to itself"
  | .rebound => some "reference has already been used by a parse and cannot be rebound"
  | .missingFunction => some "seq_map expects parsers followed by a mapping function"
  | .raised text => some text
  | .divisionByZero => some "Division by zero"
  | .malformedToken problem offset =>
      some s!"{problem.text}: line 1 column {offset + 1} (char {offset})"
  | .malformedPattern | .tooLarge | .mismatch | .noCharacter | .unknownName _ => none

end Descent
