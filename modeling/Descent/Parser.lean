/-
# Parsers

A parser is a tree of primitives and combinators. Handles in it, references and
deferred rules, stand for parsers that are kept elsewhere and may change; all
other parts are fixed when the parser is made.
-/

import Descent.Description
import Descent.Repetition
import Descent.Reply

namespace Descent

/-- A parser. -/
inductive Parser
  /-- A given text. -/
  | string (s : String)
  /-- A pattern, of whose match a group is the value. -/
  | pattern (p : Pattern) (group : Nat)
  /-- A character that meets a test. -/
  | satisfy (test : Char → Call Bool) (expected : String)
  /-- The longest run of characters that meet a test. -/
  | takeWhile (test : Char → Call Bool)
  | anyChar
  | pure (v : Value)
  | fail (expected : String)
  | eof
  | position
  | index
  | rest
  /-- A parser, then the one made from its value. -/
  | bind (p : Parser) (f : Value → Parser)
  /-- A description that is built when a run reaches it. -/
  | built (d : Description) (bindings : Bindings)
  | map (p : Parser) (f : Value → Call Value)
  /-- Two parsers in a row, with the value of the second. -/
  | andThen (p q : Parser)
  /-- Two parsers in a row, with the value of the first. -/
  | skip (p q : Parser)
  | orElse (p q : Parser)
  | times (p : Parser) (r : Repetition)
  /-- A failure of the parser is reported under a description of its own. -/
  | label (p : Parser) (description : String)
  /-- An absent value is replaced by that of a call. -/
  | withDefault (p : Parser) (c : Call Value)
  | seq (n : Nat) (ps : Fin n → Parser)
  | alt (n : Nat) (ps : Fin n → Parser)
  | lookAhead (p : Parser)
  | notFollowedBy (p : Parser) (description : Option String)
  | manyTill (p stop : Parser)
  | trace (label : String)
  | traced (label : String) (p : Parser)
  /-- A reference, by its number. -/
  | reference (r : Nat)
  /-- A deferred rule, by its number. -/
  | deferred (l : Nat)

instance : Inhabited Parser := ⟨.eof⟩

end Descent
