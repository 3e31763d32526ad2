/-
# Arithmetic

Expressions of integers with the four operations, unary minus and brackets. Each
chain of operators of one rank is applied from the left, and the value is computed
while the expression is read. An expression and a factor contain each other, so
both are rules that are built when a run reaches them.
-/

import Descent.Reader

namespace Descent.Reader.Arithmetic

/-- A token with the white space that follows it. -/
def token (d : Description) : Description :=
  .join .skip d (.atom (.named .optionalWhitespace))

/-- A given text as a token. -/
def sign (s : String) : Description :=
  token (.atom (.string (.value (.str s))))

/-- An integer. -/
def integer : Description :=
  .wrap (.label (.value (.str "integer")))
    (.wrap (.map .integer)
      (token (.atom (.pattern "[0-9]+" (.number 0) {} none))))

/-- One of the given signs, yielding the function it stands for. -/
def operator (signs : String) : Description :=
  .wrap (.map .operation) (token (.atom (.oneOf (.value (.str signs)))))

/-- A factor with a minus before it. -/
def negated : Description :=
  .wrap (.map .negate) (.join .andThen (sign "-") (.deferred "factor" none))

/-- An integer, a factor with a minus, or an expression in brackets. -/
def factor : Description :=
  .join .orElse (.join .orElse negated integer)
    (.between (sign "(") (sign ")") (.deferred "expression" none))

/-- A chain of factors. -/
def term : Description :=
  .join .chainLeft factor (operator "*/")

/-- A chain of terms. -/
def expression : Description :=
  .join .chainLeft term (operator "+-")

/-- An expression with white space before it. -/
def calculation : Description :=
  .join .andThen (.atom (.named .optionalWhitespace)) expression

/-- The world of the two rules. -/
def world : World where
  rules := [("factor", factor), ("expression", expression)]

/-- The reader of calculations. -/
def reader : Reader where
  world := world
  parser := calculation.build []

/-- The calculations of the table. -/
def samples : List String :=
  ["2 + 3", "2 * 3", "2 + 3 * 4", "(2 + 3) * 4", "-2 + 3", "10 / 2 + 3", "10 / (2 - 2)",
    "2 +"]

/-- A text filled with spaces to a width. -/
def padded (width : Nat) (s : String) : String :=
  s ++ String.ofList (List.replicate (width - s.length) ' ')

/-- What the table says about a calculation: its value, the message if it cannot
be read, or the message of a fault of its arithmetic. -/
def verdict (input : String) : Except Halt String :=
  match (reader.read defaultBudget .warning input.toList).result with
  | .ok (.success v) => .ok v.shown
  | .ok (.failure f) => .ok ("Error: " ++ ParseError.message ⟨input.toList, f⟩ {})
  | .error (.fault .divisionByZero) =>
      .ok ("Runtime Error: " ++ (Fault.message .divisionByZero).getD "")
  | .error halt => .error halt

/-- The table of the sample calculations. -/
def transcript : Except Halt Transcript := do
  let rows ← samples.mapM fun input => do
    return padded 20 input ++ " | " ++ (← verdict input) ++ "\n"
  return ⟨padded 20 "Expression" ++ " | " ++ padded 10 "Result" ++ "\n"
    ++ String.ofList (List.replicate 35 '-') ++ "\n" ++ String.join rows, 0⟩

end Descent.Reader.Arithmetic
