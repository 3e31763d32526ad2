/-
# Derived parsers

The parsers that are put together from others. Each is defined by its
composition, so what it reports on failure follows from its parts.
-/

import Descent.Parser
import Descent.Pattern.Standard
import Descent.Value.Callback
import Descent.Value.Printer

namespace Descent

namespace Parser

/-- The parsers of a list in a row, with the list of their values. -/
def sequence (ps : List Parser) : Parser :=
  .seq ps.length ps.get

/-- The first parser of a list that succeeds. -/
def choice (ps : List Parser) : Parser :=
  .alt ps.length ps.get

/-- A fixed value in place of that of a parser. -/
def result (p : Parser) (v : Value) : Parser :=
  p.map fun _ => .answer v

/-- The characters that meet a test without a name of its own. -/
def characterWhere (f : Char → Except Fault Bool) : Parser :=
  .satisfy (fun c => .ofExcept (f c)) "a character matching <lambda>"

/-- A given character. A value that is no single character is never met. -/
def char (c : Value) : Parser :=
  (characterWhere fun x => .ok ((Value.text [x]).same c)).label ("'" ++ c.shown ++ "'")

/-- One of the characters that a value holds. -/
def oneOf (cs : Value) : Parser :=
  (characterWhere cs.holds).label ("a character in '" ++ cs.shown ++ "'")

/-- A character that a value does not hold. -/
def noneOf (cs : Value) : Parser :=
  (characterWhere fun x => (cs.holds x).map not).label ("a character not in '" ++ cs.shown ++ "'")

/-- A letter from a to z in either case. -/
def letter : Parser :=
  (Parser.pattern Pattern.letter 0).label "a letter"

/-- Any number of letters. -/
def letters : Parser :=
  .pattern Pattern.letters 0

/-- A digit from 0 to 9. -/
def digit : Parser :=
  (Parser.pattern Pattern.digit 0).label "a digit"

/-- Any number of digits. -/
def digits : Parser :=
  (Parser.pattern Pattern.digits 0).label "optional digits"

/-- White space. -/
def whitespace : Parser :=
  (Parser.pattern Pattern.blanks 0).label "whitespace"

/-- White space or nothing. -/
def optionalWhitespace : Parser :=
  (Parser.pattern Pattern.optionalBlanks 0).label "optional whitespace"

/-- A line break. -/
def newline : Parser :=
  (char (.str "\n")).label "lf new-line"

/-- A carriage return and a line break, yielding the latter. -/
def crlf : Parser :=
  ((Parser.string "\r\n").result (.str "\n")).label "crlf new-line"

/-- A line break with or without a carriage return. -/
def endOfLine : Parser :=
  (newline.orElse crlf).label "new-line"

/-- A character that meets a named predicate. -/
def satisfying (p : Predicate) : Parser :=
  .satisfy p.test ("a character matching " ++ p.name)

/-- A white-space character. -/
def space : Parser :=
  (satisfying .blank).label "space"

/-- A capital letter. -/
def upper : Parser :=
  (satisfying .upper).label "uppercase letter"

/-- A small letter. -/
def lower : Parser :=
  (satisfying .lower).label "lowercase letter"

/-- A letter or numeral. -/
def alphaNum : Parser :=
  (satisfying .alphanumeric).label "letter or digit"

/-- A digit of base sixteen. -/
def hexDigit : Parser :=
  (oneOf (.str "0123456789abcdefABCDEF")).label "hexadecimal digit"

/-- A digit of base eight. -/
def octDigit : Parser :=
  (oneOf (.str "01234567")).label "octal digit"

/-- Any number of occurrences. -/
def many (p : Parser) : Parser :=
  p.times .any

/-- Occurrences up to a repetition and then any number of further ones, as one
list. -/
def andMany (p : Parser) (r : Repetition) : Parser :=
  (p.times r).bind fun front =>
    p.many.map fun back => .answer (.list (front.items ++ back.items))

/-- One or more occurrences. -/
def many1 (p : Parser) : Parser :=
  p.andMany ⟨1, some 1⟩

/-- One or more occurrences with separators between them. -/
def sepBy1 (p sep : Parser) : Parser :=
  let tail := (sep.andThen p).many
  p.bind fun first => tail.map fun rest => .answer (.list (first :: rest.items))

/-- Any number of occurrences with separators between them. -/
def sepBy (p sep : Parser) : Parser :=
  (p.sepBy1 sep).orElse (.pure (.list []))

/-- Any number of occurrences, each ended by a separator. -/
def endBy (p sep : Parser) : Parser :=
  (p.skip sep).many

/-- The mark of two positions around a value. -/
def markOf : Value → Value → Value → Value
  | .position start, v, .position stop => .mark start v stop
  | _, v, _ => v

/-- A value with the positions it starts and ends at. -/
def mark (p : Parser) : Parser :=
  Parser.position.bind fun start =>
    p.bind fun v => Parser.position.map fun stop => .answer (markOf start v stop)

/-- The value of a parser, or another one if it fails. -/
def option (v : Value) (p : Parser) : Parser :=
  p.orElse (.pure v)

/-- The value of a parser, or an absent one if it fails. -/
def optional (p : Parser) : Parser :=
  p.option .null

/-- A function yielded by one parser applied to the value of another. -/
def ap (p q : Parser) : Parser :=
  p.bind fun f => q.map fun v => f.call [v]

/-- Two parsers in a row, with both values. -/
def both (p q : Parser) : Parser :=
  p.bind fun a => q.map fun b => .answer (.tuple [a, b])

/-- A parser between two others. -/
def between (opening closing p : Parser) : Parser :=
  (opening.andThen p).skip closing

/-- Any number of occurrences, of which nothing is kept. -/
def skipMany (p : Parser) : Parser :=
  p.many.result .null

/-- The values of parsers in a row given to a function. -/
def seqMap (ps : List Parser) (f : List Value → Call Value) : Parser :=
  (sequence ps).map fun v => f v.items

/-- Apply the operators of a chain from the left. -/
def foldLeft (first : Value) : List Value → Call Value
  | [] => .answer first
  | .list [f, operand] :: pairs => do
      let next ← f.call [first, operand]
      foldLeft next pairs
  | _ => .giveUp .mismatch

/-- The operators of a chain, each with the operand behind it. -/
def linksOf : List Value → Option (List (Value × Value))
  | [] => some []
  | .list [f, operand] :: pairs => (linksOf pairs).map ((f, operand) :: ·)
  | _ => none

/-- Apply the operators of a chain from the right: start with the last operand, and go back
through the operators and the operands in front of them. -/
def foldRight (first : Value) (pairs : List Value) : Call Value :=
  match linksOf pairs with
  | none => .giveUp .mismatch
  | some links =>
      let operators := links.map (·.1)
      let operands := first :: links.map (·.2)
      let steps := operators.reverse.zip operands.dropLast.reverse
      steps.foldlM (fun back step => step.1.call [step.2, back])
        (operands.getLast (List.cons_ne_nil _ _))

/-- A chain of operands with operators between them, which are applied by a fold
once all are read. -/
def chain (fold : Value → List Value → Call Value) (p op : Parser) : Parser :=
  seqMap [p, (sequence [op, p]).many] fun
    | [first, pairs] => fold first pairs.items
    | _ => .giveUp .mismatch

/-- A chain of operands whose operators apply from the left. -/
def chainLeft (p op : Parser) : Parser :=
  chain foldLeft p op

/-- A chain of operands whose operators apply from the right. -/
def chainRight (p op : Parser) : Parser :=
  chain foldRight p op

end Parser

end Descent
