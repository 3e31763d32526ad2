/-
# Events

What can be observed of a run besides its reply: log records, the building of
rules, and the calls of functions and predicates that announce themselves.
-/

import Descent.Value

namespace Descent

/-- How important a record is. -/
inductive Level
  | debug
  | info
  | warning
  | error
  deriving DecidableEq

/-- The rank of a level among the four. -/
def Level.rank : Level → Nat
  | .debug => 0
  | .info => 1
  | .warning => 2
  | .error => 3

/-- Whether records of a level pass when `threshold` is in force. -/
def Level.passes (level threshold : Level) : Bool :=
  threshold.rank ≤ level.rank

/-- The part of the library that a record comes from: entry points report failed
parses, references report their misuse, and traces report what they see. -/
inductive Channel
  | parsing
  | references
  | tracing
  deriving DecidableEq

/-- Something that happened during an operation. -/
inductive Event
  | record (level : Level) (channel : Channel) (text : String)
  | built (rule : String)
  | called (argument : Value)
  | tested (c : Char)

/-- Whether an event is a log record. -/
def Event.isRecord : Event → Bool
  | .record .. => true
  | _ => false

end Descent
