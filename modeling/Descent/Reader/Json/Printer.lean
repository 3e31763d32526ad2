/-
# Writing data documents

A value is written in plain characters, one item or entry to a line, each level
indented by four more spaces. Empty containers stay on their line.
-/

import Descent.Binary64.Written
import Descent.Reader.Json
import Descent.Text.Quoted

namespace Descent.Reader.Json

/-- Doubles as documents write them. -/
def doubleFormat : Binary64.Format :=
  { Binary64.plain with nan := "NaN", infinity := "Infinity" }

/-- A code unit as an escape of four digits. -/
def unitEscape (n : Nat) : Text :=
  '\\' :: 'u' :: Text.hexadecimal 4 n

/-- One code point of a written string. Those outside the seven-bit alphabet are
escaped, those above the first plane as surrogate pairs. -/
def writtenCode (n : Nat) : Text :=
  if n = '"'.toNat || n = '\\'.toNat then ['\\', Char.ofNat n]
  else if n = '\n'.toNat then ['\\', 'n']
  else if n = '\r'.toNat then ['\\', 'r']
  else if n = '\t'.toNat then ['\\', 't']
  else if n = '\x08'.toNat then ['\\', 'b']
  else if n = '\x0c'.toNat then ['\\', 'f']
  else if 0x20 ≤ n && n < 0x7F then [Char.ofNat n]
  else if n < 0x10000 then unitEscape n
  else unitEscape (0xD800 + (n - 0x10000) / 0x400) ++ unitEscape (0xDC00 + (n - 0x10000) % 0x400)

/-- A written string of code points. -/
def writtenString (codes : List Nat) : String :=
  String.ofList ('"' :: codes.flatMap writtenCode ++ ['"'])

/-- The code points in a list of values. -/
def codesOf : List Value → List Nat
  | [] => []
  | .int n :: items => n.toNat :: codesOf items
  | _ :: items => codesOf items

/-- A line break and the indentation of a level. -/
def lineStart (level : Nat) : String :=
  String.ofList ('\n' :: List.replicate (4 * level) ' ')

/-- Parts of a container between its brackets, each on a line of its own. -/
def bracketed (opening closing : String) (level : Nat) : List String → String
  | [] => opening ++ closing
  | parts =>
      opening ++ lineStart (level + 1) ++ ("," ++ lineStart (level + 1)).intercalate parts
        ++ lineStart level ++ closing

mutual

/-- A written value at a level of indentation. A tuple is a string that is no text. -/
def write (level : Nat) : Value → String
  | .null => "null"
  | .bool true => "true"
  | .bool false => "false"
  | .int n => toString n
  | .float x => Binary64.write doubleFormat x
  | .str s => writtenString (s.toList.map Char.toNat)
  | .tuple codes => writtenString (codesOf codes)
  | .list items => bracketed "[" "]" level (writeItems (level + 1) items)
  | .dict entries => bracketed "\x7b" "\x7d" level (writeEntries (level + 1) entries)
  | .position _ | .mark .. | .function _ | .adding _ => ""

/-- The written items of an array. -/
def writeItems (level : Nat) : List Value → List String
  | [] => []
  | item :: items => write level item :: writeItems level items

/-- The written entries of an object. -/
def writeEntries (level : Nat) : List (Value × Value) → List String
  | [] => []
  | (key, v) :: entries =>
      (write level key ++ ": " ++ write level v) :: writeEntries level entries

end

/-- Read a document and write it again, or else the message. -/
def transcript (input : Text) : Except Halt Transcript := do
  match ← (reader.read defaultBudget .warning input).result with
  | .success v => return ⟨"Successfully Parsed:\n" ++ write 0 v ++ "\n", 0⟩
  | .failure f =>
      return ⟨"Parsing Failed: " ++ ParseError.message ⟨input, f⟩ {} ++ "\n", 0⟩

end Descent.Reader.Json
