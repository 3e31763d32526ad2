/-
# Command line

Three programs: `lisp` reads the expressions given as an argument, or else on the
standard input; `json` reads a data document from a file and writes it again; and
`arithmetic` writes a table of calculations.
-/

import Descent.Reader.Arithmetic
import Descent.Reader.Json.Printer
import Descent.Reader.Lisp

namespace Descent

/-- How a program that came to no end of its own is reported. -/
def Halt.report : Halt → String
  | .fault f => f.message.getD "fault"
  | .unfinished => "out of budget"

/-- Write what a program has to say, and answer with its code. -/
def conclude : Except Halt Transcript → IO UInt32
  | .ok t => do
      IO.print t.output
      return t.exitCode.toUInt32
  | .error halt => do
      IO.eprintln halt.report
      return 1

/-- The text on the standard input. -/
partial def readAll (stream : IO.FS.Stream) (text : String) : IO String := do
  let line ← stream.getLine
  if line.isEmpty then return text else readAll stream (text ++ line)

end Descent

open Descent in
/-- Run the program that the first argument names. -/
def main : List String → IO UInt32
  | ["lisp"] => do conclude (Reader.Lisp.transcript (← readAll (← IO.getStdin) "").toList)
  | "lisp" :: source :: _ => conclude (Reader.Lisp.transcript source.toList)
  | "json" :: args => do
      let text ← IO.FS.readFile (args.headD "examples/json_example.json")
      conclude (Reader.Json.transcript (Text.unifyLineBreaks text.toList))
  | "arithmetic" :: _ => conclude Reader.Arithmetic.transcript
  | _ => do
      IO.eprintln "usage: lisp [SOURCE] | json [FILE] | arithmetic"
      return 2
