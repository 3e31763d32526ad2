/-
# Quoted texts

A text is shown between single quotes, or between double quotes if it holds a
single quote and no double one. The backslash and the quote in use are escaped,
and so is every character that is not printable.
-/

import Descent.Text
import Descent.Character.Printable

namespace Descent.Text

/-- A number in base sixteen with small letters, filled with zeros to a width. -/
def hexadecimal (width n : Nat) : Text :=
  let digits := Nat.toDigits 16 n
  List.replicate (width - digits.length) '0' ++ digits

/-- A code point written as an escape of two, four or eight digits, the shortest
that holds it. -/
def codeEscape (code : Nat) : Text :=
  if code < 0x100 then '\\' :: 'x' :: hexadecimal 2 code
  else if code < 0x10000 then '\\' :: 'u' :: hexadecimal 4 code
  else '\\' :: 'U' :: hexadecimal 8 code

/-- One character of a quoted text. -/
def quotedChar (quote c : Char) : Text :=
  if c = quote || c = '\\' then ['\\', c]
  else if c = '\n' then ['\\', 'n']
  else if c = '\r' then ['\\', 'r']
  else if c = '\t' then ['\\', 't']
  else if Character.isPrintable c then [c]
  else codeEscape c.toNat

/-- The quote put around a text. -/
def quoteFor (s : Text) : Char :=
  if s.contains '\'' && !s.contains '"' then '"' else '\''

/-- The quoted form of a text. -/
def quoted (s : Text) : Text :=
  let quote := quoteFor s
  quote :: s.flatMap (quotedChar quote) ++ [quote]

end Descent.Text

namespace Descent

/-- The quoted form of a string. -/
def quote (s : String) : String :=
  String.ofList (Text.quoted s.toList)

end Descent
