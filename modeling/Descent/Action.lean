/-
# Actions

An action runs at an offset of an input and ends with a reply. The combinators
below say in which order the parts of a parser are run, at which offsets, and how
their replies are merged. Loops without a bound of their own are given a budget
of turns, which they never use up in a run that comes to its end.

A combinator only passes on what its parts do, so it works in every monad that
can make the steps of a run: that of runs itself, or one that also keeps account
of them.
-/

import Descent.World

namespace Descent

/-- What a parser does in a monad: it runs on an input at an offset. -/
abbrev ActionIn (m : Type → Type) := Text → Int → m Reply

/-- What a parser does in a plain run. -/
abbrev Action := ActionIn Run

namespace Action

/-- A given text. -/
def string (t : String) : Action := fun s i =>
  let stop := i + t.length
  if s.slice i stop = t.toList then pure (.ok stop (.str t))
  else pure (.error i ("'" ++ t ++ "'"))

/-- A pattern, whose value is absent if the group took no part. -/
def pattern (p : Pattern) (group : Nat) : Action := fun s i =>
  match p.match? group s i with
  | some (stop, taken) =>
      pure (.ok stop (match taken with
        | some t => .text t
        | none => .null))
  | none => pure (.error i p.describe)

/-- The character at an offset before the end of the input. -/
def charAt (s : Text) (i : Int) : Run Char :=
  match s.char? i with
  | some c => pure c
  | none => Run.fault .noCharacter

/-- A character that meets a test. -/
def satisfy (test : Char → Call Bool) (expected : String) : Action := fun s i => do
  if i < s.length then
    let c ← charAt s i
    if ← Run.ofCall (test c) then return .ok (i + 1) (.text [c])
    else return .error i expected
  else return .error i expected

/-- The number of characters at the start of a text that meet a test. -/
def countWhile (test : Char → Call Bool) : Text → Run Nat
  | [] => pure 0
  | c :: rest => do
      if ← Run.ofCall (test c) then return (← countWhile test rest) + 1
      else return 0

/-- The longest run of characters that meet a test. -/
def takeWhile (test : Char → Call Bool) : Action := fun s i =>
  match s.ahead? i with
  | none => Run.fault .noCharacter
  | some characters => do
      let stop := i + (← countWhile test characters)
      return .ok stop (.text (s.slice i stop))

/-- Any character. -/
def anyChar : Action := fun s i => do
  if i < s.length then
    let c ← charAt s i
    return .ok (i + 1) (.text [c])
  else return .error i "any character"

/-- A value without consuming anything. -/
def succeed (v : Value) : Action := fun _ i =>
  pure (.ok i v)

/-- A failure. -/
def fail (expected : String) : Action := fun _ i =>
  pure (.error i expected)

/-- The end of the input. -/
def eof : Action := fun s i =>
  pure (if i < s.length then .error i "end of input" else .ok i .null)

/-- The position of the offset. -/
def position : Action := fun s i => do
  let p ← Run.ofExcept (Position.locate s i)
  return .ok i (.position p)

/-- The offset itself. -/
def index : Action := fun _ i =>
  pure (.ok i (.int i))

/-- Everything that is left. -/
def rest : Action := fun s i =>
  pure (.ok s.length (.text (s.suffix i)))

/-- Whether traces are written. -/
def tracing : Run Bool := do
  return Level.debug.passes (← get).threshold

/-- Write down what comes next in the input. -/
def writeTrace (label : String) (s : Text) (i : Int) : Run Unit := do
  let upcoming := String.ofList (s.slice i (i + 30))
  let more := if 30 < s.length - i then "..." else ""
  let p ← Run.ofExcept (Position.locate s i)
  Run.record .debug .tracing (label ++ ": \"" ++ upcoming ++ more ++ "\" at " ++ p.describe)

/-- Write a trace and succeed. -/
def trace (label : String) : Action := fun s i => do
  if ← tracing then writeTrace label s i
  return .ok i .null

section Combinators

variable {m : Type → Type} [Monad m] [MonadLiftT Run m]

/-- A plain action as one of another monad. -/
def lift (a : Action) : ActionIn m := fun s i =>
  liftM (a s i)

/-- An action, then the one made from its value. -/
def bind (p : ActionIn m) (f : Value → ActionIn m) : ActionIn m := fun s i => do
  let reply ← p s i
  if reply.status then
    let next ← f reply.value s reply.index
    return next.mergeWith reply
  else return reply

/-- The value of an action given to a function. -/
def map (p : ActionIn m) (f : Value → Call Value) : ActionIn m := fun s i => do
  let reply ← p s i
  if reply.status then
    let v ← Run.ofCall (f reply.value)
    return (Reply.ok reply.index v).mergeWith reply
  else return reply

/-- Two actions in a row, with the value of the second. -/
def andThen (p q : ActionIn m) : ActionIn m := fun s i => do
  let first ← p s i
  if first.status then
    let second ← q s first.index
    return second.mergeWith first
  else return first

/-- Two actions in a row, with the value of the first. -/
def skip (p q : ActionIn m) : ActionIn m := fun s i => do
  let first ← p s i
  if first.status then
    let second := (← q s first.index).mergeWith first
    if second.status then return (Reply.ok second.index first.value).mergeWith second
    else return second
  else return first

/-- The first of two actions that succeeds, both tried at the same offset. -/
def orElse (p q : ActionIn m) : ActionIn m := fun s i => do
  let reply ← p s i
  if reply.status then return reply
  else return (← q s i).mergeWith reply

/-- The list of values of turns, given last first, with the context so far. -/
def listReply (i : Int) (context : Option Reply) (values : List Value) : Reply :=
  (Reply.ok i (.list values.reverse)).merge context

/-- The turns that must be made, after which `done` goes on. -/
def required (p : ActionIn m) (s : Text) (done : Int → Option Reply → List Value → m Reply) :
    Nat → Int → Option Reply → List Value → m Reply
  | 0, i, context, values => done i context values
  | count + 1, i, context, values => do
      let reply ← p s i
      let merged := reply.merge context
      if reply.status then
        required p s done count reply.index (some merged) (reply.value :: values)
      else return merged

/-- At most so many further turns. -/
def bounded (p : ActionIn m) (s : Text) : Nat → Int → Option Reply → List Value → m Reply
  | 0, i, context, values => pure (listReply i context values)
  | count + 1, i, context, values => do
      let reply ← p s i
      let merged := reply.merge context
      if reply.status then
        bounded p s count reply.index (some merged) (reply.value :: values)
      else return listReply i (some merged) values

/-- Any number of further turns, each of which must consume something. -/
def unbounded (p : ActionIn m) (s : Text) : Nat → Int → Option Reply → List Value → m Reply
  | 0, _, _, _ => Run.unfinished
  | budget + 1, i, context, values => do
      let reply ← p s i
      let merged := reply.merge context
      if !reply.status then return listReply i (some merged) values
      else if reply.index = i then Run.fault (.idleRepetition i)
      else unbounded p s budget reply.index (some merged) (reply.value :: values)

/-- Repeated turns of an action. -/
def times (budget : Nat) (p : ActionIn m) (r : Repetition) : ActionIn m := fun s i =>
  let further := match r.most with
    | some most => bounded p s (most - r.least)
    | none => unbounded p s budget
  required p s further r.least i none []

/-- A failure reported under a description of its own. -/
def label (p : ActionIn m) (description : String) : ActionIn m := fun s i => do
  let reply ← p s i
  if reply.status then return reply
  else return { reply with expected := .singleton description }

/-- An absent value replaced by that of a call. -/
def withDefault (p : ActionIn m) (c : Call Value) : ActionIn m := fun s i => do
  let reply ← p s i
  match reply.status, reply.value with
  | true, .null =>
      let v ← Run.ofCall c
      return (Reply.ok reply.index v).mergeWith reply
  | _, _ => return reply

/-- Actions in a row, the values so far given last first. -/
def seqFrom (s : Text) : List (ActionIn m) → Int → Option Reply → List Value → m Reply
  | [], i, context, values => pure (listReply i context values)
  | p :: ps, i, context, values => do
      let reply := (← p s i).merge context
      if reply.status then
        seqFrom s ps reply.index (some reply) (reply.value :: values)
      else return reply

/-- Actions in a row, with the list of their values. -/
def seq (ps : List (ActionIn m)) : ActionIn m := fun s i =>
  seqFrom s ps i none []

/-- The first of the actions that succeeds, after those that have failed. -/
def altFrom (s : Text) (i : Int) : List (ActionIn m) → Option Reply → m Reply
  | [], some reply => pure reply
  | [], none => pure (.error i "no alternatives")
  | p :: ps, context => do
      let reply := (← p s i).merge context
      if reply.status then return reply
      else altFrom s i ps (some reply)

/-- The first of the actions that succeeds, all tried at the same offset. -/
def alt (ps : List (ActionIn m)) : ActionIn m := fun s i =>
  altFrom s i ps none

/-- The value of an action without consuming anything. -/
def lookAhead (p : ActionIn m) : ActionIn m := fun s i => do
  let reply ← p s i
  if reply.status then return { reply with index := i }
  else return reply

/-- What is not expected where an action matched. -/
def unwanted (s : Text) (i stop : Int) : Option String → String
  | some description => "not " ++ description
  | none =>
      match s.slice i stop with
      | [] => "not followed by an empty match"
      | text => "not '" ++ String.ofList text ++ "'"

/-- Success where an action fails, without consuming anything. -/
def notFollowedBy (p : ActionIn m) (description : Option String) : ActionIn m := fun s i => do
  let reply ← p s i
  if reply.status then return .error i (unwanted s i reply.index description)
  else return .ok i .null

/-- Turns of one action until another one succeeds. -/
def turnsTill (p stop : ActionIn m) (s : Text) :
    Nat → Int → Option Reply → List Value → m Reply
  | 0, _, _, _ => Run.unfinished
  | budget + 1, i, context, values => do
      let ended := (← stop s i).merge context
      if ended.status then
        return (Reply.ok ended.index (.list values.reverse)).mergeWith ended
      else
        let reply := (← p s i).mergeWith ended
        if !reply.status then return reply
        else if reply.index = i then Run.fault (.idleTurn i)
        else turnsTill p stop s budget reply.index (some reply) (reply.value :: values)

/-- Turns of one action until another one succeeds, with the values of the turns. -/
def manyTill (budget : Nat) (p stop : ActionIn m) : ActionIn m := fun s i =>
  turnsTill p stop s budget i none []

/-- Write a trace before an action, and another one if it fails. -/
def traced (label : String) (p : ActionIn m) : ActionIn m := fun s i => do
  let on ← tracing
  if on then writeTrace label s i
  let reply ← p s i
  if on && !reply.status then writeTrace (label ++ " backtracked") s i
  return reply

end Combinators

end Action

end Descent
