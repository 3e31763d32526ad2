/-
# Symbolic expressions

A program is a sequence of expressions: integers, symbols, lists in brackets, and
a quote mark before an expression, which stands for a list of the word `quote` and
the expression.
-/

import Descent.Reader

namespace Descent.Reader.Lisp

open Pattern (Node Item)

/-- The pattern of integers. -/
def numberPattern : Pattern where
  source := "-?(0|[1-9][0-9]*)"
  flags := ""
  root := .cat (.maybe (.one '-'))
    (.group 1 (.either (.one '0')
      (.cat (.among [.range '1'.toNat '9'.toNat]) (.star .digit))))
  groups := 1

/-- The signs that symbols may hold besides letters and digits. -/
def signs : List Item :=
  ['_', '+', '-', '*', '/', '<', '>', '=', '!', '?'].map fun c => .code c.toNat

/-- The items of the letters from a to z. -/
def letterItem : Item :=
  .range 'a'.toNat 'z'.toNat

/-- The pattern of symbols, in which case is ignored. -/
def symbolPattern : Pattern where
  source := "[a-z_+\\-*/<>=!?][a-z0-9_+\\-*/<>=!?]*"
  flags := "i"
  root := .cat (.set { caseless := true } false (letterItem :: signs))
    (.star (.set { caseless := true } false
      (letterItem :: .range '0'.toNat '9'.toNat :: signs)))

theorem compile_numberPattern :
    (Pattern.compile numberPattern.source {}).toOption = some numberPattern := by
  decide +kernel

theorem compile_symbolPattern :
    (Pattern.compile symbolPattern.source { caseless := true }).toOption
      = some symbolPattern := by
  decide +kernel

/-- An integer. -/
def number : Parser :=
  ((lexeme (.pattern numberPattern 0)).map fun v => Callback.integer.apply [v]).label "number"

/-- A symbol. -/
def word : Parser :=
  (lexeme (.pattern symbolPattern 0)).label "symbol"

/-- The reference to expressions. -/
def expression : Parser :=
  .reference 0

/-- A list of expressions in brackets. -/
def list : Parser :=
  ((symbol "(").andThen expression.many).skip (symbol ")")

/-- A quoted expression. -/
def quotation : Parser :=
  ((symbol "'").andThen expression).map fun v => .answer (.list [.str "quote", v])

/-- What an expression is. -/
def expressionBody : Parser :=
  .choice [number, word, list, quotation]

/-- A sequence of expressions with white space before it. -/
def program : Parser :=
  Parser.optionalWhitespace.andThen expression.many

/-- The world in which the reference to expressions is bound. -/
def world : World where
  references := #[{ behaviour := .dispatch 0, target := some expressionBody }]

/-- The reader of programs. -/
def reader : Reader where
  world := world
  parser := pure program

/-- Read a program and write its expressions, or else the message, with which the
program ends in failure. -/
def transcript (input : Text) : Except Halt Transcript := do
  match ← (reader.read defaultBudget .warning input).result with
  | .success v => return ⟨v.shown ++ "\n", 0⟩
  | .failure f => return ⟨ParseError.message ⟨input, f⟩ {} ++ "\n", 1⟩

end Descent.Reader.Lisp
