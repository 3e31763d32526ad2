/-
# Readers

A reader is a grammar in a world of its own: a parser for whole inputs, built
where the references and rules it leads to are kept. Its tokens swallow the white
space that follows them.
-/

import Descent.Session

namespace Descent

/-- A grammar in a world of its own. -/
structure Reader where
  world : World
  /-- Make the parser of whole inputs. -/
  parser : Run Parser

namespace Reader

/-- A token with the white space that follows it. -/
def lexeme (p : Parser) : Parser :=
  p.skip .optionalWhitespace

/-- A given text as a token. -/
def symbol (s : String) : Parser :=
  lexeme (.string s)

/-- Parse an input in the world of the reader. -/
def parse (r : Reader) (budget : Nat) (input : Text) : Run Outcome := do
  let p ← r.parser
  p.parse budget input

/-- Parse an input with the given log level, and report the result with the log
records. -/
def read (r : Reader) (budget : Nat) (threshold : Level) (input : Text) : Report Outcome :=
  let (report, _) := Session.observe { r.world with threshold } (r.parse budget input)
  { report with events := report.events.filter Event.isRecord }

end Reader

/-- What a program writes and the code it ends with. -/
structure Transcript where
  output : String
  exitCode : Nat := 0

end Descent
