/-
# Sessions

A session is a sequence of steps in one world. A step may parse, or set up what
later steps use. A fault ends its step, but not the session: what the step has
changed up to then stays changed.
-/

import Descent.Parser.Outcome

namespace Descent

/-- Give a reference a target. A reference that a run has gone through keeps its
target for good; binding one anew before that is reported. -/
def Run.retarget (r : Nat) (p : Parser) : Run Unit := do
  match (← get).references[r]? with
  | none => Run.fault .mismatch
  | some reference =>
      if reference.dispatched then Run.fault .rebound
      if reference.target.isSome then
        Run.record .warning .references "reference bound more than once"
      modify fun w => { w with
        references := w.references.modify r fun c =>
          { c with behaviour := .dispatch r, target := some p } }

/-- Bind a reference to a parser other than itself. -/
def Run.bindReference (r : Nat) (p : Parser) : Run Unit := do
  if let .reference q := p then
    if q = r then Run.fault .selfReference
  Run.retarget r p

/-- A step of a session. -/
inductive Step
  | parse (p : Description) (input : Text) (style : Style)
  | call (p : Description) (input : Text) (offset : Int)
  | parseValue (p : Description) (input : Text)
  | parsePair (p : Description) (input : Text)
  | parseShown (p : Description) (input : Text)
  | threshold (level : Level)
  | rule (name : String) (p : Description)
  | reference (name : String)
  | assign (name : String) (p : Description)
  | bindReference (name : String) (p : Description)
  | isBound (name : String)

/-- What a step answers. -/
inductive Answer
  | success (v : Value)
  /-- A failed parse with its message and the message of its error. -/
  | failure (f : Failure) (message : String)
  | reply (r : Reply)
  | value (r : Except ParseError Value)
  | pair (v : Option Value) (e : Option ParseError)
  | shown (text : String)
  | truth (b : Bool)
  | nothing

namespace Step

/-- The reference that a name stands for. -/
def referenceNamed (name : String) : Run Nat := do
  match World.lookup? name (← get).names with
  | some (.reference r) => return r
  | _ => Run.fault (.unknownName name)

/-- Perform a step. -/
def perform (budget : Nat) : Step → Run Answer
  | .parse p input style => do
      let p ← p.build []
      match ← p.parse budget input with
      | .success v => return .success v
      | .failure f => return .failure f (ParseError.message ⟨input, f⟩ style)
  | .call p input offset => do
      let p ← p.build []
      return .reply (← p.run budget input offset)
  | .parseValue p input => do
      let p ← p.build []
      return .value (← p.parseValue budget input)
  | .parsePair p input => do
      let p ← p.build []
      let (v, e) ← p.parsePair budget input
      return .pair v e
  | .parseShown p input => do
      let p ← p.build []
      return .shown (← p.parseShown budget input)
  | .threshold level => do
      modify fun w => { w with threshold := level }
      return .nothing
  | .rule name p => do
      modify fun w => { w with rules := World.assign name p w.rules }
      return .nothing
  | .reference name => do
      let r ← Run.newReference
      modify fun w => { w with names := World.assign name r w.names }
      return .nothing
  | .assign name p => do
      let p ← p.build []
      modify fun w => { w with names := World.assign name p w.names }
      return .nothing
  | .bindReference name p => do
      let r ← referenceNamed name
      let p ← p.build []
      Run.bindReference r p
      return .truth true
  | .isBound name => do
      let r ← referenceNamed name
      return .truth (((← get).references[r]?).any (·.target.isSome))

end Step

/-- How something ended, with the events that happened meanwhile. -/
structure Report (α : Type) where
  result : Except Halt α
  events : List Event

namespace Session

/-- Do something in a world with an empty journal, and report on it. -/
def observe {α : Type} (w : World) (x : Run α) : Report α × World :=
  match x.run { w with journal := [] } with
  | .ok a after => (⟨.ok a, after.events⟩, after)
  | .error halt after => (⟨.error halt, after.events⟩, after)

/-- Perform the steps of a session one after another. -/
def run (budget : Nat) (w : World) : List Step → List (Report Answer)
  | [] => []
  | step :: steps =>
      let (report, after) := observe w (step.perform budget)
      report :: run budget after steps

end Session

end Descent
