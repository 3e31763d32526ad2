/-
# Descriptions of parsers

A description is a grammar written down: it says how a parser is to be built, and
is built when it is needed. Names in it stand for values bound by enclosing
parsers, for parsers that were built earlier, and for rules that are built when a
run first reaches them.
-/

import Descent.Pattern
import Descent.Predicate

namespace Descent

/-- The values of the names that enclosing parsers have bound, innermost first. -/
abbrev Bindings := List (String × Value)

/-- A value written down, possibly with names in it. -/
inductive Literal
  | value (v : Value)
  | argument (name : String)
  | list (items : List Literal)
  | tuple (items : List Literal)

namespace Literal

mutual

/-- The value of a literal. -/
def eval (bindings : Bindings) : Literal → Except Fault Value
  | .value v => .ok v
  | .argument name =>
      match bindings.find? (·.1 == name) with
      | some (_, v) => .ok v
      | none => .error (.unknownName name)
  | .list items => do return .list (← evalItems bindings items)
  | .tuple items => do return .tuple (← evalItems bindings items)

/-- The values of literals in order. -/
def evalItems (bindings : Bindings) : List Literal → Except Fault (List Value)
  | [] => .ok []
  | item :: items => do
      let v ← item.eval bindings
      return v :: (← evalItems bindings items)

end

end Literal

/-- The named parsers that take no arguments. -/
inductive Named
  | anyChar
  | letter
  | letters
  | digit
  | digits
  | whitespace
  | optionalWhitespace
  | newline
  | crlf
  | endOfLine
  | space
  | upper
  | lower
  | alphaNum
  | hexDigit
  | octDigit
  | eof
  | position
  | index
  | rest
  deriving DecidableEq

/-- A description without parts that are descriptions. -/
inductive Atom
  | named (n : Named)
  | string (s : Literal)
  | char (c : Literal)
  | oneOf (cs : Literal)
  | noneOf (cs : Literal)
  | fail (expected : Literal)
  | pure (v : Literal)
  | trace (label : Literal)
  | satisfy (p : Predicate)
  | takeWhile (p : Predicate)
  /-- A pattern, given as text with options, or compiled before with options of
  its own. -/
  | pattern (source : String) (group : Pattern.Selector) (options : Pattern.Options)
      (compiled : Option Pattern.Options)

/-- What stands in for an absent value: a value, or the result of a function. -/
inductive Default
  | value (v : Literal)
  | call (f : Callback)

/-- What is made of one parser. -/
inductive Modifier
  | map (f : Callback)
  | result (v : Literal)
  | label (description : Literal)
  | many
  | mark
  | optional
  | atMost (count : Literal)
  | atLeast (count : Literal)
  | times (least : Literal) (most : Option Literal)
  | count (n : Literal)
  | option (v : Literal)
  | withDefault (d : Default)
  | many1
  | skipMany
  | lookAhead
  | notFollowedBy (description : Option String)
  | traced (label : String)

/-- What is made of two parsers. -/
inductive Joiner
  | andThen
  | skip
  | orElse
  | both
  | ap
  | sepBy
  | sepBy1
  | endBy
  | chainLeft
  | chainRight
  | manyTill
  deriving DecidableEq

/-- A grammar written down. -/
inductive Description
  | atom (a : Atom)
  | wrap (m : Modifier) (p : Description)
  | join (j : Joiner) (p q : Description)
  | between (opening closing p : Description)
  | seq (n : Nat) (ps : Fin n → Description)
  | alt (n : Nat) (ps : Fin n → Description)
  /-- A sequence whose values are given to a function, if there is one. -/
  | seqMap (n : Nat) (ps : Fin n → Description) (f : Option Callback)
  /-- The second part is built when the first has succeeded, with its value under
  the given name. -/
  | bind (p : Description) (name : String) (q : Description)
  /-- One of two parts, chosen when it is built. -/
  | choose (first second : Literal) (p q : Description)
  /-- A parser that was built earlier. -/
  | known (name : String)
  /-- A rule that is built when a run first reaches it. -/
  | deferred (rule : String) (description : Option String)

/-- A list of descriptions as a family. -/
def Description.sequence (ps : List Description) : Description :=
  .seq ps.length ps.get

end Descent
