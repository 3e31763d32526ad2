/-
# Blank characters

The white space of a text: the controls that move the writing position, the
information separators, and every space, line and paragraph separator.
-/

import Descent.Character.Span

namespace Descent.Character

/-- The code points of white space. -/
def blankRanges : List (Nat × Nat) := [
  (0x0009, 0x000D), (0x001C, 0x0020), (0x0085, 0x0085), (0x00A0, 0x00A0), (0x1680, 0x1680),
  (0x2000, 0x200A), (0x2028, 0x2029), (0x202F, 0x202F), (0x205F, 0x205F), (0x3000, 0x3000)]

/-- Whether a character is white space. -/
def isBlank (c : Char) : Bool :=
  inRanges c.toNat blankRanges

/-- Whether a character is one of the six blanks of the seven-bit alphabet:
the space and the controls from tab to carriage return. -/
def isPlainBlank (c : Char) : Bool :=
  c.toNat == 0x20 || (0x09 ≤ c.toNat && c.toNat ≤ 0x0D)

end Descent.Character
