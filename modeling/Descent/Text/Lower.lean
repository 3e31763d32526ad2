/-
# Small-letter form of a text

The small form of a text follows its characters with two exceptions: the dotted
capital I becomes two characters, and a capital sigma at the end of a word takes
its final form.
-/

import Descent.Text
import Descent.Character.Case

namespace Descent.Text

/-- Whether the nearest character that counts for case is a cased one. -/
def meetsCased (neighbours : Text) : Bool :=
  match neighbours.dropWhile Character.isCaseIgnorable with
  | [] => false
  | c :: _ => Character.isCased c

/-- The small form of one character between its neighbours, those before it
listed from the nearest on. A capital sigma takes its final form after a cased
letter and before none. -/
def lowerBetween (before : Text) (c : Char) (after : Text) : Text :=
  if c = 'Σ' then
    if meetsCased before && !meetsCased after then ['ς'] else ['σ']
  else if c = 'İ' then ['i', '\u0307']
  else [Character.lower c]

/-- Small forms of the characters of a text, given those before it in reverse. -/
def lowerAfter (before : Text) : Text → Text
  | [] => []
  | c :: rest => lowerBetween before c rest ++ lowerAfter (c :: before) rest

/-- The small-letter form of a text. -/
def lower (s : Text) : Text :=
  lowerAfter [] s

end Descent.Text

namespace Descent

/-- The small-letter form of a string. -/
def lowerCase (s : String) : String :=
  String.ofList (Text.lower s.toList)

end Descent
