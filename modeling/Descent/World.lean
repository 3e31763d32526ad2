/-
# The world of a run

Parsers refer to things that are kept outside them: references, which are bound
once the parser for them exists, and deferred rules, which are built when a run
first reaches them. The world holds these, the rules and names of a session,
and the journal of events. It stays as it is when a run ends in a fault.
-/

import Descent.Parser

namespace Descent

/-- What happens when a handle is run. -/
inductive Behaviour
  /-- Run a parser that is no handle. -/
  | run (p : Parser)
  /-- Fail, because a reference was not bound when this behaviour was taken. -/
  | unbound (r : Nat)
  /-- Go through a reference to whatever it is bound to. -/
  | dispatch (r : Nat)
  /-- Build a deferred rule, keep the behaviour of what was built, and run that. -/
  | build (l : Nat)

/-- A forward reference. -/
structure Reference where
  behaviour : Behaviour
  target : Option Parser := none
  /-- Whether a run has gone through the reference. -/
  dispatched : Bool := false

/-- A rule that is built when a run first reaches it. -/
structure Deferred where
  rule : String
  behaviour : Behaviour

/-- What is kept outside of parsers. -/
structure World where
  threshold : Level := .warning
  /-- The events so far, the latest first. -/
  journal : List Event := []
  rules : List (String × Description) := []
  names : List (String × Parser) := []
  references : Array Reference := #[]
  deferred : Array Deferred := #[]

namespace World

/-- What running a parser does at present. -/
def behaviour (w : World) : Parser → Behaviour
  | .reference r =>
      match w.references[r]? with
      | some reference => reference.behaviour
      | none => .unbound r
  | .deferred l =>
      match w.deferred[l]? with
      | some deferred => deferred.behaviour
      | none => .build l
  | p => .run p

/-- Set what a name stands for. -/
def assign {α : Type} (name : String) (a : α) (entries : List (String × α)) :
    List (String × α) :=
  (name, a) :: entries.filter (·.1 != name)

/-- What a name stands for. -/
def lookup? {α : Type} (name : String) (entries : List (String × α)) : Option α :=
  (entries.find? (·.1 == name)).map (·.2)

/-- The events so far in the order they happened. -/
def events (w : World) : List Event :=
  w.journal.reverse

end World

/-- Why a run ends without a reply: by a fault, or because the budget of steps was
used up before the run came to its end. -/
inductive Halt
  | fault (f : Fault)
  | unfinished

/-- A step of a run, which may change the world and may halt. -/
abbrev Run := EStateM Halt World

namespace Run

variable {α : Type}

/-- End by a fault. -/
def fault (f : Fault) : Run α :=
  throw (.fault f)

/-- End because the budget is used up. -/
def unfinished : Run α :=
  throw .unfinished

/-- Note an event. -/
def note (event : Event) : Run Unit :=
  modify fun w => { w with journal := event :: w.journal }

/-- Write a record if its level passes. -/
def record (level : Level) (channel : Channel) (text : String) : Run Unit := do
  if level.passes (← get).threshold then note (.record level channel text)

/-- The result of something that may fail. -/
def ofExcept : Except Fault α → Run α
  | .ok a => pure a
  | .error f => fault f

/-- Make a call: its events are noted, and its fault ends the run. -/
def ofCall (c : Call α) : Run α := do
  modify fun w => { w with journal := c.events.reverse ++ w.journal }
  ofExcept c.result

/-- Make a new reference. -/
def newReference : Run Parser := do
  let w ← get
  let r := w.references.size
  set { w with references := w.references.push { behaviour := .unbound r } }
  return .reference r

/-- Make a new deferred rule. -/
def newDeferred (rule : String) : Run Parser := do
  let w ← get
  let l := w.deferred.size
  set { w with deferred := w.deferred.push ⟨rule, .build l⟩ }
  return .deferred l

end Run

end Descent
