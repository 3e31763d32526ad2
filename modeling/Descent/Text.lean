/-
# Texts and offsets

A text is the list of its characters, so lengths, offsets and columns all count
characters. Offsets are integers: a slice bound below zero counts from the end
of the text, and a slice is cut off where the text ends.
-/

namespace Descent

/-- A text is the list of its characters. -/
abbrev Text := List Char

namespace Text

/-- The number of characters before a slice bound. A negative bound counts from
the end and stops at the start; a bound past the end is left as it is, since
`drop` and `take` stop there by themselves. -/
def bound (s : Text) (i : Int) : Nat :=
  if i < 0 then (s.length + i).toNat else i.toNat

/-- The characters from offset `i` on. -/
def suffix (s : Text) (i : Int) : Text :=
  s.drop (s.bound i)

/-- The characters from offset `i` up to, not including, offset `j`. The slice is
empty when the bounds are out of order. -/
def slice (s : Text) (i j : Int) : Text :=
  (s.suffix i).take (s.bound j - s.bound i)

/-- The character at offset `i`, where a negative offset counts from the end. -/
def char? (s : Text) (i : Int) : Option Char :=
  if 0 ≤ i then s[i.toNat]?
  else if 0 ≤ s.length + i then s[(s.length + i).toNat]?
  else none

/-- The characters met by stepping forward from an offset. An offset before the
start passes the last characters first, as far as there are so many. -/
def ahead? (s : Text) (i : Int) : Option Text :=
  if 0 ≤ i then some (s.suffix i)
  else if 0 ≤ s.length + i then some (s.suffix i ++ s)
  else none

/-- The text with every line ended by a single line feed. -/
def unifyLineBreaks : Text → Text
  | [] => []
  | '\r' :: '\n' :: rest => '\n' :: unifyLineBreaks rest
  | c :: rest => (if c = '\r' then '\n' else c) :: unifyLineBreaks rest

end Text

end Descent
