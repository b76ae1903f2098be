/-!
# Sets of characters by evenly spaced code points

A set is a list of spans, each every `step`-th code point from `first` to `last`; alternating
upper and lower case letters then take one span each.
-/

namespace SchemaGate.Text

/-- Every `step`-th code point from `first` to `last`, both ends included. -/
structure Span where
  first : Nat
  last : Nat
  step : Nat
  deriving DecidableEq, Repr

/-- A code point lies on a span when it is between the ends and a whole number of steps in. -/
def Span.has (s : Span) (n : Nat) : Bool :=
  s.first ≤ n && n ≤ s.last && (n - s.first) % s.step == 0

abbrev CharSet := List Span

def CharSet.has (set : CharSet) (c : Char) : Bool :=
  set.any (·.has c.toNat)

end SchemaGate.Text
