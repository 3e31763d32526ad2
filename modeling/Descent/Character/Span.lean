/-
# Tables of code points

Character properties are data: each is a list of spans of code points in
increasing order. A span may take every code point between its ends or only
every second one, since capital and small letters often alternate.
-/

namespace Descent.Character

/-- Every `step`-th code point from `first` to `last`, both ends included. -/
structure Span where
  first : Nat
  last : Nat
  step : Nat

namespace Span

/-- Whether a code point is one of those the span takes. -/
def covers (span : Span) (code : Nat) : Bool :=
  span.first ≤ code && code ≤ span.last && (code - span.first) % span.step == 0

end Span

/-- Whether a code point lies in one of the closed ranges of an increasing table.
The search ends at the first range that starts above the code point. -/
def inRanges (code : Nat) : List (Nat × Nat) → Bool
  | [] => false
  | (first, last) :: ranges =>
      if code < first then false
      else if code ≤ last then true
      else inRanges code ranges

/-- Whether a code point is covered by one of the spans of an increasing table. -/
def inSpans (code : Nat) : List Span → Bool
  | [] => false
  | span :: spans =>
      if code < span.first then false
      else if span.covers code then true
      else inSpans code spans

end Descent.Character
