/-
# Matching a pattern tree

A tree is matched by backtracking: each node is given what has to match after it
and answers with the first way in which both match. Repetitions are bounded by
the text that is left, because a turn that takes nothing is not followed by
another one at the same place.
-/

import Descent.Text
import Descent.Pattern.Node

namespace Descent.Pattern

/-- A place in the text during a match: the characters from there on, how many
stand before them, and the texts that the groups have taken so far. -/
structure Cursor where
  rest : Text
  offset : Nat
  taken : List (Option Text)

/-- What has to match after a node, and the match as a whole. -/
abbrev Continuation := Cursor → Option Cursor

namespace Cursor

/-- Take one character that meets a condition. -/
def take? (c : Cursor) (holds : Char → Bool) : Option Cursor :=
  match c.rest with
  | [] => none
  | x :: rest => if holds x then some { c with rest, offset := c.offset + 1 } else none

/-- The text that a group has taken, for groups counted from one. -/
def group? (c : Cursor) (number : Nat) : Option Text :=
  (c.taken[number - 1]?).join

/-- Note what a group has taken between two places. -/
def close (start stop : Cursor) (number : Nat) : Cursor :=
  let text := start.rest.take (stop.offset - start.offset)
  { stop with taken := stop.taken.set (number - 1) (some text) }

/-- Skip a text, character by character up to case. -/
def follow (plain caseless : Bool) : Text → Continuation
  | [], c => some c
  | x :: text, c =>
      let same (y : Char) : Bool :=
        if !caseless then x == y
        else if plain then Character.plainLower x == Character.plainLower y
        else Character.lower x == Character.lower y
      match c.take? same with
      | none => none
      | some next => follow plain caseless text next

end Cursor

/-- Whether the character next to a place on one side is part of a word. -/
def wordAt (plain : Bool) : Option Char → Bool
  | none => false
  | some c => Family.word.holds plain c

/-- The character before an offset. -/
def charBefore (whole : Text) (offset : Nat) : Option Char :=
  if offset = 0 then none else whole[offset - 1]?

/-- Whether a condition holds at a place of a text. In an empty text there is
neither a word boundary nor a place that is none. -/
def Anchor.holds (whole : Text) (c : Cursor) : Anchor → Bool
  | .textStart => c.offset = 0
  | .textEnd => c.rest.isEmpty
  | .lineStart => c.offset = 0 || charBefore whole c.offset == some '\n'
  | .lineEnd => c.rest.isEmpty || c.rest.head? == some '\n'
  | .lastLineEnd => c.rest.isEmpty || c.rest == ['\n']
  | .boundary plain =>
      !whole.isEmpty && wordAt plain (charBefore whole c.offset) != wordAt plain c.rest.head?
  | .noBoundary plain =>
      !whole.isEmpty && wordAt plain (charBefore whole c.offset) == wordAt plain c.rest.head?

/-- Whether no further turn may start here: the count is used up, or the last
turn started at this very place. -/
def turnsEnd (left : Option Nat) (last : Option Nat) (c : Cursor) : Bool :=
  left == some 0 || last == some c.offset

/-- Exactly `count` turns. -/
def exactTurns (turn : Continuation → Continuation) : Nat → Continuation → Continuation
  | 0, k => k
  | count + 1, k => turn (exactTurns turn count k)

/-- Further turns, as many as possible first. -/
def mostTurns (turn : Continuation → Continuation) (k : Continuation) :
    Nat → Option Nat → Option Nat → Continuation
  | 0, _, _, c => k c
  | budget + 1, left, last, c =>
      if turnsEnd left last c then k c
      else
        match turn (mostTurns turn k budget (left.map (· - 1)) (some c.offset)) c with
        | some found => some found
        | none => k c

/-- Further turns, as few as possible first. -/
def fewestTurns (turn : Continuation → Continuation) (k : Continuation) :
    Nat → Option Nat → Option Nat → Continuation
  | 0, _, _, c => k c
  | budget + 1, left, last, c =>
      match k c with
      | some found => some found
      | none =>
          if turnsEnd left last c then none
          else turn (fewestTurns turn k budget (left.map (· - 1)) (some c.offset)) c

/-- Further turns, each matched in one way, as long as there are any. -/
def allTurns (turn : Continuation → Continuation) :
    Nat → Option Nat → Option Nat → Cursor → Cursor
  | 0, _, _, c => c
  | budget + 1, left, last, c =>
      if turnsEnd left last c then c
      else
        match turn some c with
        | some next => allTurns turn budget (left.map (· - 1)) (some c.offset) next
        | none => c

/-- A number of turns that no repetition exceeds from here. -/
def turnBudget (c : Cursor) : Nat :=
  c.rest.length + 2

/-- The first way in which a node matches here and the continuation after it. -/
def Node.run (whole : Text) : Node → Continuation → Continuation
  | .empty, k, c => k c
  | .set a outside items, k, c =>
      match c.take? fun x => items.any (·.covers a x) != outside with
      | some next => k next
      | none => none
  | .any lineBreaks, k, c =>
      match c.take? fun x => lineBreaks || x != '\n' with
      | some next => k next
      | none => none
  | .cat first second, k, c => first.run whole (fun next => second.run whole k next) c
  | .either first second, k, c =>
      match first.run whole k c with
      | some found => some found
      | none => second.run whole k c
  | .repeated .most least extra body, k, c =>
      exactTurns (body.run whole) least
        (fun next => mostTurns (body.run whole) k (turnBudget next) extra none next) c
  | .repeated .fewest least extra body, k, c =>
      exactTurns (body.run whole) least
        (fun next => fewestTurns (body.run whole) k (turnBudget next) extra none next) c
  | .repeated .possessive least extra body, k, c =>
      let once (k : Continuation) (c : Cursor) : Option Cursor :=
        match body.run whole some c with
        | some next => k next
        | none => none
      exactTurns once least
        (fun next => k (allTurns (body.run whole) (turnBudget next) extra none next)) c
  | .group number body, k, c => body.run whole (fun next => k (c.close next number)) c
  | .again number a, k, c =>
      match c.group? number with
      | none => none
      | some text =>
          match Cursor.follow a.plain a.caseless text c with
          | some next => k next
          | none => none
  | .ahead true body, k, c =>
      match body.run whole some c with
      | some found => k { c with taken := found.taken }
      | none => none
  | .ahead false body, k, c =>
      match body.run whole some c with
      | some _ => none
      | none => k c
  | .behind true width body, k, c =>
      if c.offset < width then none
      else
        let back := { c with rest := whole.drop (c.offset - width), offset := c.offset - width }
        match body.run whole some back with
        | some found => k { c with taken := found.taken }
        | none => none
  | .behind false width body, k, c =>
      if c.offset < width then k c
      else
        let back := { c with rest := whole.drop (c.offset - width), offset := c.offset - width }
        match body.run whole some back with
        | some _ => none
        | none => k c
  | .anchor a, k, c => if a.holds whole c then k c else none
  | .atomic body, k, c =>
      match body.run whole some c with
      | some next => k next
      | none => none

end Descent.Pattern
