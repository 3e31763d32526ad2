/-
# Patterns

A pattern is matched exactly at a given offset, against the whole text, so that
what it says about the characters before sees the text already consumed.
-/

import Descent.Pattern.Matcher
import Descent.Pattern.Reader
import Descent.Text.Quoted

namespace Descent

/-- A pattern ready to be matched: its text, its options as letters, its tree and
its groups. -/
structure Pattern where
  source : String
  flags : String
  root : Pattern.Node
  groups : Nat := 0
  names : List (String × Nat) := []
  deriving DecidableEq

namespace Pattern

/-- Read a pattern under the given options. -/
def compile (source : String) (options : Options) : Except Fault Pattern :=
  match symbols? source.toList with
  | none => .error .malformedPattern
  | some symbols =>
      match (readChoice (3 * symbols.length + 4) true options).run
          { rest := symbols, options } with
      | .error fault => .error fault
      | .ok (root, p) =>
          if p.rest.isEmpty then
            .ok ⟨source, p.options.letters, root, p.widths.length, p.names⟩
          else .error .malformedPattern

/-- A pattern in words. -/
def describe (p : Pattern) : String :=
  "/" ++ p.source ++ "/" ++ p.flags

/-- Which part of a match is wanted: the whole, for zero, or what a group took. -/
inductive Selector
  | number (n : Int)
  | name (s : String)

/-- The number of the group that a selector means, if the pattern has it. -/
def select (p : Pattern) : Selector → Except Fault Nat
  | .number n =>
      if 0 ≤ n && n ≤ p.groups then .ok n.toNat else .error (.noGroup p.describe n)
  | .name s =>
      match p.names.find? (·.1 == s) with
      | some (_, number) => .ok number
      | none => .error (.noGroupNamed p.describe (quote s))

/-- Match a pattern at an offset, which is moved into the text if it is outside.
The answer is the end of the match and the text of a group, if it took one. -/
def match? (p : Pattern) (group : Nat) (s : Text) (offset : Int) :
    Option (Nat × Option Text) :=
  let start := min offset.toNat s.length
  let rest := s.drop start
  match p.root.run s some ⟨rest, start, List.replicate p.groups none⟩ with
  | none => none
  | some found =>
      if group = 0 then some (found.offset, some (rest.take (found.offset - start)))
      else some (found.offset, found.group? group)

end Pattern

end Descent
