/-
# The functions of a grammar

What the named functions do. Most are plain functions of their arguments; two
show themselves, one by an event and one by giving up. A function applied to
arguments it has no meaning for is a fault.
-/

import Descent.Text.Quoted
import Descent.Value.Equality
import Descent.Value.Integer

namespace Descent

namespace Value

/-- The strings in a list of values, if they are all strings. -/
def strings? : List Value → Option (List String)
  | [] => some []
  | .str s :: rest => (strings? rest).map (s :: ·)
  | _ => none

/-- The two parts of a value that has just two: a pair, or a text of two
characters. -/
def pair? : Value → Option (Value × Value)
  | .tuple [key, value] | .list [key, value] => some (key, value)
  | .str s =>
      match s.toList with
      | [a, b] => some (.text [a], .text [b])
      | _ => none
  | _ => none

/-- The pairs in a list of values, if they are all pairs. -/
def pairs? (vs : List Value) : Option (List (Value × Value)) :=
  vs.mapM pair?

/-- Add two values: numbers by arithmetic, texts and lists by joining them. -/
def add : Value → Value → Except Fault Value
  | .str s, .str t => .ok (.str (s ++ t))
  | .list xs, .list ys => .ok (.list (xs ++ ys))
  | .tuple xs, .tuple ys => .ok (.tuple (xs ++ ys))
  | v, w =>
      match Number.ofValue? v, Number.ofValue? w with
      | some a, some b =>
          (Number.combine (· + ·) (· + ·) a b).map Number.toValue
      | _, _ => .error .mismatch

/-- Apply an operation to two values that are numbers. -/
def arithmetic (operation : Number → Number → Except Fault Number) (v w : Value) :
    Except Fault Value :=
  match Number.ofValue? v, Number.ofValue? w with
  | some a, some b => (operation a b).map Number.toValue
  | _, _ => .error .mismatch

/-- A value twice: a number doubled, a text or list repeated. -/
def double : Value → Except Fault Value
  | .str s => .ok (.str (s ++ s))
  | .list xs => .ok (.list (xs ++ xs))
  | .tuple xs => .ok (.tuple (xs ++ xs))
  | v => arithmetic (Number.combine (· * ·) (· * ·)) v (.int 2)

/-- The number of parts of a value. -/
def length : Value → Except Fault Value
  | .str s => .ok (.int s.length)
  | .list xs | .tuple xs => .ok (.int xs.length)
  | .dict entries => .ok (.int entries.length)
  | _ => .error .mismatch

/-- A text or list backwards. -/
def reversed : Value → Except Fault Value
  | .str s => .ok (.text s.toList.reverse)
  | .list xs => .ok (.list xs.reverse)
  | .tuple xs => .ok (.tuple xs.reverse)
  | _ => .error .mismatch

/-- The integer written in a text. -/
def integer : Value → Except Fault Value
  | .str s =>
      match Text.toInt? s.toList with
      | some n => .ok (.int n)
      | none => .error (.notInteger (quote s))
  | .int n => .ok (.int n)
  | .bool b => .ok (.int (if b then 1 else 0))
  | _ => .error .mismatch

/-- A list of texts as one text. -/
def joined : Value → Except Fault Value
  | .str s => .ok (.str s)
  | .list xs | .tuple xs =>
      match strings? xs with
      | some parts => .ok (.str (String.join parts))
      | none => .error .mismatch
  | _ => .error .mismatch

/-- The dictionary of a list of pairs. -/
def dictionary : Value → Except Fault Value
  | .dict entries => .ok (.dict entries)
  | .list xs | .tuple xs =>
      match pairs? xs with
      | some pairs => .ok (.dict (dictOf pairs))
      | none => .error .mismatch
  | _ => .error .mismatch

/-- The opposite of a number. -/
def negated (v : Value) : Except Fault Value :=
  match Number.ofValue? v with
  | some a => .ok a.negate.toValue
  | none => .error .mismatch

/-- Two texts in brackets. -/
def parenthesized : Value → Value → Except Fault Value
  | .str s, .str t => .ok (.str ("(" ++ s ++ " " ++ t ++ ")"))
  | _, _ => .error .mismatch

/-- The function that a sign of arithmetic stands for. -/
def operation : Value → Except Fault Value
  | .str "+" => .ok (.function .add)
  | .str "-" => .ok (.function .subtract)
  | .str "*" => .ok (.function .multiply)
  | .str "/" => .ok (.function .divide)
  | _ => .error .mismatch

end Value

/-- Apply a function of a grammar. -/
def Callback.apply : Callback → List Value → Call Value
  | .identity, [v] => .answer v
  | .integer, [v] => .ofExcept v.integer
  | .length, [v] => .ofExcept v.length
  | .negate, [v] => .ofExcept v.negated
  | .increment, [v] => .ofExcept (v.add (.int 1))
  | .double, [v] => .ofExcept v.double
  | .join, [v] => .ofExcept v.joined
  | .reverse, [v] => .ofExcept v.reversed
  | .pair, [v] => .answer (.tuple [v, v])
  | .toNull, [_] => .answer .null
  | .wrap, [v] => .answer (.list [v])
  | .dictionary, [v] => .ofExcept v.dictionary
  | .note, [v] => .announce (.called v) v
  | .boom, _ => .giveUp (.raised "boom")
  | .adder, [v] => .answer (.adding v)
  | .add, [v, w] => .ofExcept (v.add w)
  | .subtract, [v, w] => .ofExcept (v.arithmetic (Number.combine (· - ·) (· - ·)) w)
  | .multiply, [v, w] => .ofExcept (v.arithmetic (Number.combine (· * ·) (· * ·)) w)
  | .power, [v, w] => .ofExcept (v.arithmetic Number.power w)
  | .divide, [v, w] => .ofExcept (v.arithmetic Number.divide w)
  | .parenthesize, [v, w] => .ofExcept (v.parenthesized w)
  | .tuple2, [v, w] => .answer (.tuple [v, w])
  | .list, vs => .answer (.list vs)
  | .concat, vs => .ofExcept (Value.list vs).joined
  | .countArguments, vs => .answer (.int vs.length)
  | .operation, [v] => .ofExcept v.operation
  | _, _ => .giveUp .mismatch

/-- Apply a value to arguments, which it must be a function for. -/
def Value.call : Value → List Value → Call Value
  | .function f, vs => f.apply vs
  | .adding x, [y] => .ofExcept (x.add y)
  | _, _ => .giveUp .mismatch

end Descent
