/-
# Running parsers

A parser is run by following its tree. Handles and descriptions lead to parsers
that are not part of the tree, so a run is given a budget: it bounds how deep
handles are followed and how many turns a loop without a bound may make. A run
that ends within some budget ends in the same way within every larger one.

A run can be watched: whenever a parser is started, as a whole or as a part of
another one, the watcher is given what the parser is about to do. A plain run is
watched by nobody.
-/

import Descent.Action
import Descent.Description.Build

namespace Descent

/-- The failure of a reference that is not bound. -/
def unboundExpectation : String :=
  "actual parser, not a reference"

namespace World

/-- Note that a run has gone through a reference. -/
def markDispatched (w : World) (r : Nat) : World :=
  { w with references := w.references.modify r fun c => { c with dispatched := true } }

/-- Keep a behaviour for a deferred rule. -/
def keepBehaviour (w : World) (l : Nat) (b : Behaviour) : World :=
  { w with deferred := w.deferred.modify l fun c => { c with behaviour := b } }

end World

variable {m : Type → Type} [Monad m] [MonadLiftT Run m]

namespace Run

/-- What running a parser does at present. -/
def behaviour (p : Parser) : Run Behaviour := do
  return (← get).behaviour p

/-- Go through a reference to its target. -/
def enterReference (r : Nat) : Run (Option Parser) := do
  modify fun w => w.markDispatched r
  return ((← get).references[r]?).bind (·.target)

end Run

namespace Behaviour

/-- Build what a deferred rule stands for now, and keep its present behaviour. -/
def buildRule (l : Nat) : Run Unit := do
  match (← get).deferred[l]? with
  | none => Run.fault (.unknownName "")
  | some handle =>
      Run.note (.built handle.rule)
      match World.lookup? handle.rule (← get).rules with
      | none => Run.fault (.unknownName handle.rule)
      | some description =>
          let target ← description.build []
          modify fun w => w.keepBehaviour l (w.behaviour target)

/-- What a handle does, where `descend` runs the parsers it leads to. -/
def perform (descend : Parser → ActionIn m) : Behaviour → ActionIn m
  | .run p, s, i => descend p s i
  | .unbound _, _, i => do
      Run.record .warning .references s!"reference used before assignment at offset {i}"
      return .error i unboundExpectation
  | .dispatch r, s, i => do
      match ← Run.enterReference r with
      | some target => descend target s i
      | none => Run.fault .mismatch
  | .build l, s, i => do
      buildRule l
      descend (.deferred l) s i

end Behaviour

namespace Parser

/-- What a handle does at present, where `descend` runs the parsers it leads to. -/
def follow (descend : Parser → ActionIn m) (handle : Parser) : ActionIn m := fun s i => do
  let behaviour ← Run.behaviour handle
  behaviour.perform descend s i

/-- Build a description and run what was built. -/
def buildAndRun (descend : Parser → ActionIn m) (d : Description) (bindings : Bindings) :
    ActionIn m := fun s i => do
  let p ← d.build bindings
  descend p s i

/-- What a parser does, where `descend` runs the parsers that its handles and
descriptions lead to, and `watch` is given what each parser does when it is
started. -/
def action (watch : Parser → ActionIn m → ActionIn m) (descend : Parser → ActionIn m)
    (turns : Nat) (p : Parser) : ActionIn m :=
  watch p <| match p with
  | .string t => Action.lift (.string t)
  | .pattern p group => Action.lift (.pattern p group)
  | .satisfy test expected => Action.lift (.satisfy test expected)
  | .takeWhile test => Action.lift (.takeWhile test)
  | .anyChar => Action.lift .anyChar
  | .pure v => Action.lift (.succeed v)
  | .fail expected => Action.lift (.fail expected)
  | .eof => Action.lift .eof
  | .position => Action.lift .position
  | .index => Action.lift .index
  | .rest => Action.lift .rest
  | .bind p f =>
      Action.bind (p.action watch descend turns) fun v => (f v).action watch descend turns
  | .built d bindings => buildAndRun descend d bindings
  | .map p f => Action.map (p.action watch descend turns) f
  | .andThen p q => Action.andThen (p.action watch descend turns) (q.action watch descend turns)
  | .skip p q => Action.skip (p.action watch descend turns) (q.action watch descend turns)
  | .orElse p q => Action.orElse (p.action watch descend turns) (q.action watch descend turns)
  | .times p r => Action.times turns (p.action watch descend turns) r
  | .label p description => Action.label (p.action watch descend turns) description
  | .withDefault p c => Action.withDefault (p.action watch descend turns) c
  | .seq _ ps => Action.seq (List.ofFn fun k => (ps k).action watch descend turns)
  | .alt _ ps => Action.alt (List.ofFn fun k => (ps k).action watch descend turns)
  | .lookAhead p => Action.lookAhead (p.action watch descend turns)
  | .notFollowedBy p description => Action.notFollowedBy (p.action watch descend turns) description
  | .manyTill p stop =>
      Action.manyTill turns (p.action watch descend turns) (stop.action watch descend turns)
  | .trace text => Action.lift (.trace text)
  | .traced text p => Action.traced text (p.action watch descend turns)
  | .reference r => follow descend (.reference r)
  | .deferred l => follow descend (.deferred l)

/-- Run a parser within a budget under the eyes of a watcher. -/
def runWatched (watch : Parser → ActionIn m → ActionIn m) : Nat → Parser → ActionIn m
  | 0, _ => fun _ _ => liftM (Run.unfinished : Run Reply)
  | budget + 1, p => p.action watch (runWatched watch budget) budget

/-- Run a parser within a budget. -/
def run : Nat → Parser → Action :=
  runWatched fun _ act => act

end Parser

end Descent
