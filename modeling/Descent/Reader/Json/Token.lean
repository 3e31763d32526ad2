/-
# Tokens of data documents

The values of number and string tokens. A number with a point or an exponent is a
double, any other an integer. A string is decoded escape by escape; two escapes
that form a surrogate pair stand for one character, and half of a pair that
stands alone keeps its code. The reader of documents takes the decoder as a
parameter.
-/

import Descent.Binary64.Basic
import Descent.Text.Digits
import Descent.Value

namespace Descent.Reader.Json

/-- The value of the digits of a number token. -/
def decimalNumber (digits : Text) : Nat :=
  Text.numberOf 10 digits

/-- The exponent of a number token, from the letter that announces it on. -/
def exponentOf : Text → Int
  | _ :: '-' :: digits => -(decimalNumber digits : Int)
  | _ :: '+' :: digits => decimalNumber digits
  | _ :: digits => decimalNumber digits
  | [] => 0

/-- The value of an unsigned number token. -/
def unsignedValue (negative : Bool) (token : Text) : Value :=
  let whole := token.takeWhile Char.isDigit
  let rest := token.dropWhile Char.isDigit
  let fraction := match rest with
    | '.' :: more => more.takeWhile Char.isDigit
    | _ => []
  let exponent := match rest with
    | '.' :: more => more.dropWhile Char.isDigit
    | _ => rest
  if rest.isEmpty then
    .int (if negative then -(decimalNumber whole : Int) else decimalNumber whole)
  else
    .float (Binary64.ofDecimal negative (decimalNumber (whole ++ fraction))
      (exponentOf exponent - fraction.length))

/-- The value of a number token. -/
def numberValue : Text → Value
  | '-' :: token => unsignedValue true token
  | token => unsignedValue false token

/-- The character of an escape of one letter. -/
def shortEscape? : Char → Option Char
  | '"' => some '"'
  | '\\' => some '\\'
  | '/' => some '/'
  | 'b' => some '\x08'
  | 'f' => some '\x0c'
  | 'n' => some '\n'
  | 'r' => some '\r'
  | 't' => some '\t'
  | _ => none

/-- The code units of the inside of a string token up to its closing quote, where
the first character given has the given offset in the token. -/
def codeUnits (offset : Nat) : Text → Except Fault (List Nat)
  | '"' :: _ => .ok []
  | '\\' :: 'u' :: a :: b :: c :: d :: rest =>
      if [a, b, c, d].all Text.isHexDigit then do
        return Text.numberOf 16 [a, b, c, d] :: (← codeUnits (offset + 6) rest)
      else .error (.malformedToken .codeEscape (offset + 1))
  | '\\' :: 'u' :: _ => .error (.malformedToken .codeEscape (offset + 1))
  | '\\' :: c :: rest =>
      match shortEscape? c with
      | some x => do return x.toNat :: (← codeUnits (offset + 2) rest)
      | none => .error (.malformedToken .escape offset)
  | c :: rest =>
      if c.toNat < 0x20 then .error (.malformedToken .control offset)
      else do return c.toNat :: (← codeUnits (offset + 1) rest)
  | [] => .ok []

/-- Whether a code unit is the first half of a surrogate pair. -/
def isHighSurrogate (n : Nat) : Bool :=
  0xD800 ≤ n && n < 0xDC00

/-- Whether a code unit is the second half of a surrogate pair. -/
def isLowSurrogate (n : Nat) : Bool :=
  0xDC00 ≤ n && n < 0xE000

/-- The code points of code units: surrogate pairs are joined, and half of a pair
that stands alone is a code point of its own. -/
def joinSurrogates : List Nat → List Nat
  | high :: low :: rest =>
      if isHighSurrogate high && isLowSurrogate low then
        (0x10000 + (high - 0xD800) * 0x400 + (low - 0xDC00)) :: joinSurrogates rest
      else high :: joinSurrogates (low :: rest)
  | [n] => [n]
  | [] => []

/-- The code points of a string token. -/
def stringCodes : Text → Except Fault (List Nat)
  | '"' :: inside => do return joinSurrogates (← codeUnits 1 inside)
  | _ => .error .mismatch

/-- A decoder of tokens: every number token has a value, and a string token has its
code points or is refused. -/
structure Decoder where
  number : Text → Value
  string : Text → Except Fault (List Nat)

/-- The decoder of the format. -/
def Decoder.standard : Decoder where
  number := numberValue
  string := stringCodes

/-- The value of a string. Code points that are not all characters make no text;
such a string is kept as the tuple of its code points. -/
def stringOf (codes : List Nat) : Value :=
  if ∀ n ∈ codes, n.isValidChar then .text (codes.map Char.ofNat)
  else .tuple (codes.map fun n : Nat => .int n)

/-- The value of a number token. -/
def Decoder.decodeNumber (d : Decoder) : Value → Except Fault Value
  | .str s => .ok (d.number s.toList)
  | _ => .error .mismatch

/-- The value of a string token. -/
def Decoder.decodeString (d : Decoder) : Value → Except Fault Value
  | .str s => (d.string s.toList).map stringOf
  | _ => .error .mismatch

end Descent.Reader.Json
