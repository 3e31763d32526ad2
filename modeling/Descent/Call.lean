/-
# Calls

A function or predicate of a grammar may announce events and may give up with a
fault, but it sees nothing of the run it is called from. Its effect is therefore
a list of events together with a result.
-/

import Descent.Event
import Descent.Fault

namespace Descent

/-- The effect of calling a function or predicate. -/
structure Call (α : Type) where
  events : List Event
  result : Except Fault α

namespace Call

variable {α β : Type}

/-- A call that only answers. -/
def answer (a : α) : Call α :=
  ⟨[], .ok a⟩

/-- A call that gives up. -/
def giveUp (fault : Fault) : Call α :=
  ⟨[], .error fault⟩

/-- A call that announces an event and answers. -/
def announce (event : Event) (a : α) : Call α :=
  ⟨[event], .ok a⟩

/-- One call after another. After a fault the second does not take place. -/
def bind (c : Call α) (f : α → Call β) : Call β :=
  match c.result with
  | .error fault => ⟨c.events, .error fault⟩
  | .ok a => ⟨c.events ++ (f a).events, (f a).result⟩

instance : Monad Call where
  pure := answer
  bind := bind

/-- A result without events. -/
def ofExcept (r : Except Fault α) : Call α :=
  ⟨[], r⟩

end Call

end Descent
