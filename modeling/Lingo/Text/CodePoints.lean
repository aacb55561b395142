/-!
# Sets of code points

A set of code points is written as its *edges*: the ascending list of numbers
at which membership changes, so that `[a, b, c, d]` is the union of `a … b - 1`
and `c … d - 1`. A code point belongs to the set when it lies at or above the
first edge and does not belong to the set of the other edges.
-/

namespace Lingo.Text

/-- Whether `c` belongs to the set with the given edges. -/
def withinEdges : List Nat → Char → Bool
  | [], _ => false
  | edge :: rest, c => edge ≤ c.toNat && !withinEdges rest c

end Lingo.Text
