/-
# Building parsers from descriptions

The parts of a description are built from left to right, and the first fault ends
the construction. Each deferred rule in a description becomes a new handle every
time the description is built.
-/

import Descent.Parser.Combinators
import Descent.World

namespace Descent

namespace Named

/-- The parser of a name. -/
def parser : Named → Parser
  | .anyChar => .anyChar
  | .letter => .letter
  | .letters => .letters
  | .digit => .digit
  | .digits => .digits
  | .whitespace => .whitespace
  | .optionalWhitespace => .optionalWhitespace
  | .newline => .newline
  | .crlf => .crlf
  | .endOfLine => .endOfLine
  | .space => .space
  | .upper => .upper
  | .lower => .lower
  | .alphaNum => .alphaNum
  | .hexDigit => .hexDigit
  | .octDigit => .octDigit
  | .eof => .eof
  | .position => .position
  | .index => .index
  | .rest => .rest

end Named

namespace Literal

/-- The text that a literal shows. -/
def text (bindings : Bindings) (l : Literal) : Except Fault String :=
  (l.eval bindings).map Value.shown

/-- The number that a literal stands for. -/
def number (bindings : Bindings) (l : Literal) : Except Fault Number := do
  match Number.ofValue? (← l.eval bindings) with
  | some n => return n
  | none => throw .mismatch

end Literal

namespace Atom

/-- The parser of a given text. A container is equal to no stretch of the input,
and what has no length is refused. -/
def stringParser : Value → Except Fault Parser
  | .str s => .ok (.string s)
  | v@(.list _) | v@(.tuple _) | v@(.dict _) => .ok (.fail ("'" ++ v.shown ++ "'"))
  | _ => .error .mismatch

/-- The parser of a pattern. A compiled pattern takes no further options. -/
def patternParser (source : String) (group : Pattern.Selector) (options : Pattern.Options)
    (compiled : Option Pattern.Options) : Except Fault Parser := do
  let p ← match compiled with
    | none => Pattern.compile source options
    | some own => do
        let p ← Pattern.compile source own
        if options = {} then .ok p else .error .flagsForCompiled
  return .pattern p (← p.select group)

/-- The parser of a description without parts. -/
def build (bindings : Bindings) : Atom → Except Fault Parser
  | .named n => .ok n.parser
  | .string s => do stringParser (← s.eval bindings)
  | .char c => do return .char (← c.eval bindings)
  | .oneOf cs => do return .oneOf (← cs.eval bindings)
  | .noneOf cs => do return .noneOf (← cs.eval bindings)
  | .fail expected => do return .fail (← expected.text bindings)
  | .pure v => do return .pure (← v.eval bindings)
  | .trace label => do return .trace (← label.text bindings)
  | .satisfy p => .ok (.satisfying p)
  | .takeWhile p => .ok (.takeWhile p.test)
  | .pattern source group options compiled => patternParser source group options compiled

end Atom

namespace Modifier

/-- The greatest count of a repetition, the least if none is given. -/
def greatest (bindings : Bindings) (least : Number) : Option Literal → Except Fault Number
  | none => .ok least
  | some most => most.number bindings

/-- Make a parser of another one. -/
def build (bindings : Bindings) (p : Parser) : Modifier → Except Fault Parser
  | .map f => .ok (p.map fun v => f.apply [v])
  | .result v => do return p.result (← v.eval bindings)
  | .label description => do return p.label (← description.text bindings)
  | .many => .ok p.many
  | .mark => .ok p.mark
  | .optional => .ok p.optional
  | .atMost n => do
      return p.times (← Repetition.between (.int 0) (← n.number bindings))
  | .atLeast n => do
      return p.andMany (← Repetition.exactly (← n.number bindings))
  | .times least most => do
      let least ← least.number bindings
      return p.times (← Repetition.between least (← greatest bindings least most))
  | .count n => do
      return p.times (← Repetition.exactly (Repetition.atLeastZero (← n.number bindings)))
  | .option v => do return p.option (← v.eval bindings)
  | .withDefault (.value v) => do return p.withDefault (.answer (← v.eval bindings))
  | .withDefault (.call f) => .ok (p.withDefault (f.apply [.str "default"]))
  | .many1 => .ok p.many1
  | .skipMany => .ok p.skipMany
  | .lookAhead => .ok p.lookAhead
  | .notFollowedBy description => .ok (p.notFollowedBy description)
  | .traced text => .ok (p.traced text)

end Modifier

namespace Joiner

/-- Make a parser of two others. -/
def build (p q : Parser) : Joiner → Parser
  | .andThen => p.andThen q
  | .skip => p.skip q
  | .orElse => p.orElse q
  | .both => p.both q
  | .ap => p.ap q
  | .sepBy => p.sepBy q
  | .sepBy1 => p.sepBy1 q
  | .endBy => p.endBy q
  | .chainLeft => p.chainLeft q
  | .chainRight => p.chainRight q
  | .manyTill => p.manyTill q

end Joiner

namespace Description

/-- Do steps one after another and collect what they give. -/
def inOrder {α : Type} : List (Run α) → Run (List α)
  | [] => pure []
  | step :: steps => do
      let a ← step
      return a :: (← inOrder steps)

/-- Build the parser of a description. -/
def build (bindings : Bindings) : Description → Run Parser
  | .atom a => Run.ofExcept (a.build bindings)
  | .wrap m p => do
      let p ← p.build bindings
      Run.ofExcept (m.build bindings p)
  | .join j p q => do
      let p ← p.build bindings
      let q ← q.build bindings
      return j.build p q
  | .between opening closing p => do
      let opening ← opening.build bindings
      let closing ← closing.build bindings
      let p ← p.build bindings
      return .between opening closing p
  | .seq _ ps => do
      return .sequence (← inOrder (List.ofFn fun k => (ps k).build bindings))
  | .alt _ ps => do
      return .choice (← inOrder (List.ofFn fun k => (ps k).build bindings))
  | .seqMap _ ps f => do
      let parsers ← inOrder (List.ofFn fun k => (ps k).build bindings)
      match f with
      | some f => return .seqMap parsers f.apply
      | none => Run.fault .missingFunction
  | .bind p name q => do
      let p ← p.build bindings
      return p.bind fun v => .built q ((name, v) :: bindings)
  | .choose first second p q => do
      let a ← Run.ofExcept (first.eval bindings)
      let b ← Run.ofExcept (second.eval bindings)
      if a.same b then p.build bindings else q.build bindings
  | .known name => do
      match World.lookup? name (← get).names with
      | some p => return p
      | none => Run.fault (.unknownName name)
  | .deferred rule description => do
      let handle ← Run.newDeferred rule
      match description with
      | some text => return handle.label text
      | none => return handle

end Description

end Descent
