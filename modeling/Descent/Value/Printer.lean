/-
# The text of a value

Every value has one written form. A string by itself is shown raw; inside a
container it is quoted like any other value.
-/

import Descent.Binary64.Written
import Descent.Text.Quoted
import Descent.Value

namespace Descent

/-- The written form of a position. -/
def Position.written (p : Position) : String :=
  s!"SourcePos(offset={p.offset}, line={p.line}, column={p.column})"

namespace Value

mutual

/-- The written form of a value. -/
def written : Value → String
  | .null => "None"
  | .bool true => "True"
  | .bool false => "False"
  | .int n => toString n
  | .float x => Binary64.write Binary64.plain x
  | .str s => quote s
  | .list items => "[" ++ ", ".intercalate (writtenItems items) ++ "]"
  | .tuple [item] => "(" ++ item.written ++ ",)"
  | .tuple items => "(" ++ ", ".intercalate (writtenItems items) ++ ")"
  | .dict entries => "\x7b" ++ ", ".intercalate (writtenEntries entries) ++ "\x7d"
  | .position p => p.written
  | .mark start value stop =>
      s!"Mark(start={start.written}, value=" ++ value.written ++ s!", end={stop.written})"
  | .function _ => "<function>"
  | .adding _ => "<function>"

/-- The written forms of the items of a container. -/
def writtenItems : List Value → List String
  | [] => []
  | item :: items => item.written :: writtenItems items

/-- The written forms of the entries of a dictionary. -/
def writtenEntries : List (Value × Value) → List String
  | [] => []
  | (key, value) :: entries => (key.written ++ ": " ++ value.written) :: writtenEntries entries

end

/-- A value as it is shown by itself: a string raw, anything else in its written
form, but a position in words. -/
def shown : Value → String
  | .str s => s
  | .position p => p.describe
  | v => v.written

end Value

end Descent
