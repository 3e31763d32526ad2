/-
# Predicates on characters

The predicates that a grammar can name. Each has the name that messages use. Two
show themselves when they are called: one by an event and one by giving up.
-/

import Descent.Call
import Descent.Character.Blank
import Descent.Character.Case
import Descent.Character.Numeral

namespace Descent

/-- The predicates that a grammar can name. -/
inductive Predicate
  | digit
  | blank
  | upper
  | lower
  | alphanumeric
  | letter
  | vowel
  | notX
  | odd
  | note
  | boom
  deriving DecidableEq

namespace Predicate

/-- The name of a predicate in messages. -/
def name : Predicate → String
  | .digit => "isdigit"
  | .blank => "isspace"
  | .upper => "isupper"
  | .lower => "islower"
  | .alphanumeric => "isalnum"
  | .letter => "isalpha"
  | .vowel => "is_vowel"
  | .notX => "<lambda>"
  | .odd => "<Odd predicate>"
  | .note => "pred_note"
  | .boom => "pred_boom"

/-- Test a character. -/
def test : Predicate → Char → Call Bool
  | .digit, c => .answer (Character.isDigit c)
  | .blank, c => .answer (Character.isBlank c)
  | .upper, c => .answer (Character.isUpper c)
  | .lower, c => .answer (Character.isLower c)
  | .alphanumeric, c => .answer (Character.isAlphanumeric c)
  | .letter, c => .answer (Character.isLetter c)
  | .vowel, c => .answer ("aeiou".toList.contains c)
  | .notX, c => .answer (c != 'x')
  | .odd, c => .answer (c.toNat % 2 == 1)
  | .note, c => .announce (.tested c) (c != ';')
  | .boom, c => .giveUp (.raised (String.ofList ("pred boom at ".toList ++ [c])))

end Predicate

end Descent
