/-
# Data documents

A document is one value: an absent value, a truth value, a string, a number, an
object of entries or an array of values. A repeated key of an object keeps its
first place and takes its last value. What a number or a string token stands for
is left to a decoder.
-/

import Descent.Reader
import Descent.Reader.Json.Token

namespace Descent.Reader.Json

/-- The pattern of numbers. -/
def numberPattern : Pattern where
  source := "-?(0|[1-9][0-9]*)(\\.[0-9]+)?([eE][+-]?[0-9]+)?"
  flags := ""
  root := .cat (.maybe (.one '-'))
    (.cat (.group 1 (.either (.one '0')
        (.cat (.among [.range '1'.toNat '9'.toNat]) (.star .digit))))
      (.cat (.maybe (.group 2 (.cat (.one '.') (.plus .digit))))
        (.maybe (.group 3 (.cat (.among [.code 'e'.toNat, .code 'E'.toNat])
          (.cat (.maybe (.among [.code '+'.toNat, .code '-'.toNat])) (.plus .digit)))))))
  groups := 3

/-- The pattern of strings: anything between quotes, with a backslash before a
quote that is part of the string. -/
def stringPattern : Pattern where
  source := "\"((?:[^\"\\\\]|\\\\.)*)\""
  flags := ""
  root := .cat (.one '"')
    (.cat (.group 1 (.star (.either
        (.set {} true [.code '"'.toNat, .code '\\'.toNat])
        (.cat (.one '\\') (.any false)))))
      (.one '"'))
  groups := 1

theorem compile_numberPattern :
    (Pattern.compile numberPattern.source {}).toOption = some numberPattern := by
  decide +kernel

theorem compile_stringPattern :
    (Pattern.compile stringPattern.source {}).toOption = some stringPattern := by
  decide +kernel

/-- The word for an absent value. -/
def nullValue : Parser :=
  (symbol "null").result .null

/-- The word for true. -/
def trueValue : Parser :=
  (symbol "true").result (.bool true)

/-- The word for false. -/
def falseValue : Parser :=
  (symbol "false").result (.bool false)

/-- The reference to values. -/
def value : Parser :=
  .reference 0

/-- An array of values. -/
def array : Parser :=
  .between (symbol "[") (symbol "]") (value.sepBy (symbol ","))

/-- A value with white space before it. -/
def document : Parser :=
  Parser.optionalWhitespace.andThen value

section Tokens

variable (d : Decoder)

/-- A number. -/
def number : Parser :=
  ((lexeme (.pattern numberPattern 0)).map fun v => .ofExcept (d.decodeNumber v)).label "number"

/-- A string. -/
def string : Parser :=
  ((lexeme (.pattern stringPattern 0)).map fun v => .ofExcept (d.decodeString v)).label "string"

/-- An entry of an object as a pair. -/
def entry : Parser :=
  .seqMap [string d, symbol ":", value] fun
    | [key, _, v] => .answer (.tuple [key, v])
    | _ => .giveUp .mismatch

/-- An object. -/
def object : Parser :=
  (Parser.between (symbol "\x7b") (symbol "\x7d") ((entry d).sepBy (symbol ","))).map fun v =>
    Callback.dictionary.apply [v]

/-- What a value is. -/
def valueBody : Parser :=
  .choice [nullValue, trueValue, falseValue, string d, number d, object d, array]

/-- The world in which the reference to values is bound. -/
def world : World where
  references := #[{ behaviour := .dispatch 0, target := some (valueBody d) }]

/-- The reader of documents whose tokens are decoded in a given way. -/
def readerWith : Reader where
  world := world d
  parser := pure document

end Tokens

/-- The reader of documents. -/
def reader : Reader :=
  readerWith .standard

end Descent.Reader.Json
