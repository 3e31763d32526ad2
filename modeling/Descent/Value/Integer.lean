/-
# Integers in texts

An integer is read from a text with padding around it, a sign, and decimal digits
of any script, where single low lines may separate digits.
-/

import Descent.Character.Blank
import Descent.Character.Numeral
import Descent.Text

namespace Descent.Text

/-- Whether a character may stand around an integer: the six plain blanks, and
white space outside the seven-bit alphabet. The information separators may not. -/
def isPadding (c : Char) : Bool :=
  if c.toNat < 0x80 then Character.isPlainBlank c else Character.isBlank c

/-- The text without the padding around it. -/
def strip (s : Text) : Text :=
  ((s.dropWhile isPadding).reverse.dropWhile isPadding).reverse

/-- Read digits after those that make up `n`. A low line must stand between two
digits; `fresh` says that a digit has to come next. -/
def digitsFrom? (n : Nat) (fresh : Bool) : Text → Option Nat
  | [] => if fresh then none else some n
  | c :: rest =>
      if c = '_' then if fresh then none else digitsFrom? n true rest
      else
        match Character.decimalValue? c with
        | some d => digitsFrom? (10 * n + d) false rest
        | none => none

/-- Read a signed integer. -/
def toInt? (s : Text) : Option Int :=
  match s.strip with
  | '+' :: digits => (digitsFrom? 0 true digits).map fun n => (n : Int)
  | '-' :: digits => (digitsFrom? 0 true digits).map fun n => -(n : Int)
  | digits => (digitsFrom? 0 true digits).map fun n => (n : Int)

end Descent.Text
