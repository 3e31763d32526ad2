/-
# Pattern trees

The tree of a pattern: what may stand for one character, how parts follow each
other or are repeated, and which conditions hold between characters. Options are
resolved when the tree is made, so a tree is matched without reference to them.
-/

import Descent.Character.Blank
import Descent.Character.Case
import Descent.Character.Numeral

namespace Descent.Pattern

/-- The three families of characters that have an escape of their own. -/
inductive Family
  | decimal
  | blank
  | word
  deriving DecidableEq

/-- Which letters count: whether case is ignored, and whether the families and
cases are those of the seven-bit alphabet only. -/
structure Alphabet where
  caseless : Bool := false
  plain : Bool := false
  deriving DecidableEq

/-- Whether a character belongs to a family. -/
def Family.holds (plain : Bool) : Family → Char → Bool
  | .decimal, c => if plain then c.isDigit else Character.isDecimal c
  | .blank, c => if plain then Character.isPlainBlank c else Character.isBlank c
  | .word, c => c = '_' || if plain then c.isAlphanum else Character.isAlphanumeric c

/-- The code points that count as a character. -/
def Alphabet.codes (a : Alphabet) (c : Char) : List Nat :=
  if !a.caseless then [c.toNat]
  else if a.plain then Character.plainCaseVariants c
  else Character.caseVariants c

/-- One item of a set of characters. -/
inductive Item
  | code (n : Nat)
  | range (first last : Nat)
  | family (f : Family) (complement : Bool)
  deriving DecidableEq

/-- Whether an item takes a character in. -/
def Item.covers (a : Alphabet) (c : Char) : Item → Bool
  | .code n => (a.codes c).contains n
  | .range first last => (a.codes c).any fun n => first ≤ n && n ≤ last
  | .family f complement => f.holds a.plain c != complement

/-- A condition between two characters. -/
inductive Anchor
  | textStart
  | textEnd
  | lineStart
  | lineEnd
  /-- The end of the text, or the place before a line break that ends it. -/
  | lastLineEnd
  | boundary (plain : Bool)
  | noBoundary (plain : Bool)
  deriving DecidableEq

/-- How a repetition chooses its count: as many turns as possible first, as few
as possible first, or as many as possible without ever giving one back. -/
inductive Greed
  | most
  | fewest
  | possessive
  deriving DecidableEq

/-- The tree of a pattern. -/
inductive Node
  | empty
  /-- One character inside the set, or outside it. -/
  | set (a : Alphabet) (outside : Bool) (items : List Item)
  /-- Any character, line breaks only if they are let in. -/
  | any (lineBreaks : Bool)
  | cat (first second : Node)
  | either (first second : Node)
  /-- At least `least` turns and, unless unbounded, at most `extra` more. -/
  | repeated (greed : Greed) (least : Nat) (extra : Option Nat) (body : Node)
  | group (number : Nat) (body : Node)
  /-- The text that a group took last. -/
  | again (number : Nat) (a : Alphabet)
  /-- A condition on the text that follows. -/
  | ahead (holds : Bool) (body : Node)
  /-- A condition on the given number of characters before. -/
  | behind (holds : Bool) (width : Nat) (body : Node)
  | anchor (a : Anchor)
  /-- A part that is matched in one way only. -/
  | atomic (body : Node)
  deriving DecidableEq

/-- The least and the greatest number of characters that a part can take. -/
structure Width where
  least : Nat
  most : Option Nat
  deriving DecidableEq

namespace Width

/-- A fixed width. -/
def exactly (n : Nat) : Width :=
  ⟨n, some n⟩

/-- The width of one part after another. -/
def add (first second : Width) : Width where
  least := first.least + second.least
  most := match first.most, second.most with
    | some m, some n => some (m + n)
    | _, _ => none

/-- The width of one part or another. -/
def either (first second : Width) : Width where
  least := min first.least second.least
  most := match first.most, second.most with
    | some m, some n => some (max m n)
    | _, _ => none

/-- The width of repeated turns. Turns of no width have none however many. -/
def times (w : Width) (least : Nat) (extra : Option Nat) : Width where
  least := w.least * least
  most := match w.most, extra with
    | some 0, _ => some 0
    | some m, some e => some (m * (least + e))
    | none, some 0 => if least = 0 then some 0 else none
    | _, _ => none

end Width

/-- The width of a tree, where `groups` gives the widths of the groups. -/
def Node.width (groups : Nat → Width) : Node → Width
  | .empty | .ahead .. | .behind .. | .anchor _ => .exactly 0
  | .set .. | .any _ => .exactly 1
  | .cat first second => (first.width groups).add (second.width groups)
  | .either first second => (first.width groups).either (second.width groups)
  | .repeated _ least extra body => (body.width groups).times least extra
  | .group _ body | .atomic body => body.width groups
  | .again number _ => groups number

/-- The tree of a given character. -/
def Node.one (c : Char) : Node :=
  .set {} false [.code c.toNat]

/-- The tree of a character that belongs to some item. -/
def Node.among (items : List Item) : Node :=
  .set {} false items

/-- The tree of a decimal digit of the seven-bit alphabet. -/
def Node.digit : Node :=
  .among [.range '0'.toNat '9'.toNat]

/-- The tree of a part that may be left out. -/
def Node.maybe (body : Node) : Node :=
  .repeated .most 0 (some 1) body

/-- The tree of a part repeated as often as possible. -/
def Node.star (body : Node) : Node :=
  .repeated .most 0 none body

/-- The tree of a part repeated as often as possible, but at least once. -/
def Node.plus (body : Node) : Node :=
  .repeated .most 1 none body

/-- The tree of parts one after another. -/
def Node.sequence : List Node → Node
  | [] => .empty
  | [node] => node
  | node :: nodes => .cat node (sequence nodes)

/-- The tree of a choice, tried in order. -/
def Node.choice : List Node → Node
  | [] => .empty
  | [node] => node
  | node :: nodes => .either node (choice nodes)

end Descent.Pattern
