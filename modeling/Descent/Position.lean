/-
# Positions

A position is an offset with the line and column it falls on, both counted from
one. It is found by splitting the text before the offset into its lines.
-/

import Descent.Fault
import Descent.Text

namespace Descent

/-- An offset with its line and column. The fields are free, since a caller may
make up a position that belongs to no text. -/
structure Position where
  offset : Int := 0
  line : Int := 1
  column : Int := 1
  deriving DecidableEq

namespace Position

/-- The position behind a text: on the last of the lines that its line breaks separate, and
behind the characters of that line. -/
def after (s : Text) : Position :=
  let lines := s.splitOn '\n'
  ⟨s.length, lines.length, (lines.getLastD []).length + 1⟩

/-- The position of an offset within a text, for offsets from zero to its length. -/
def locate (s : Text) (offset : Int) : Except Fault Position :=
  if offset < 0 || s.length < offset then .error (.outsideInput offset s.length)
  else .ok (after (s.take offset.toNat))

/-- The positions of all offsets of a text, that of its end included. -/
def all (s : Text) : List Position :=
  (List.range (s.length + 1)).map fun n => after (s.take n)

/-- A position in words. -/
def describe (p : Position) : String :=
  s!"line {p.line}, column {p.column}"

end Position

end Descent
