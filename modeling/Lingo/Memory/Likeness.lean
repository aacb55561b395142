import Lingo.Memory

/-!
# Structural equality

`Memory.same` compares values by structure: containers are the same when they
are one cell or have the same contents, lists element by element, property
lists as maps without regard to order. Floats are the same when their bits are,
and objects when their handles are.
-/

namespace Lingo.Memory

/-- Whether two element lists have one length and related elements. -/
def sameElements (same : Value → Value → Bool) (xs ys : Array Value) : Bool :=
  xs.size == ys.size && (xs.toList.zip ys.toList).all fun (x, y) => same x y

/-- Whether two tables bind the same names to related values. -/
def sameEntries (same : Value → Value → Bool) (xs ys : Bindings Value) : Bool :=
  xs.size == ys.size &&
    xs.entries.all fun (k, x) => (ys.get? k).any (same x)

/-- Compares two values, looking `fuel - 1` levels into containers. -/
def sameTo (m : Memory) : Nat → Value → Value → Bool
  | 0, _, _ => false
  | fuel + 1, a, b =>
    a == b ||
      match a, b with
      | .point x, .point y => m.point x == m.point y
      | .rect x, .rect y => m.rect x == m.rect y
      | .list x, .list y | .argList x, .argList y | .argListNoRet x, .argListNoRet y =>
        sameElements (m.sameTo fuel) (m.list x) (m.list y)
      | .propList x, .propList y => sameEntries (m.sameTo fuel) (m.props x) (m.props y)
      | _, _ => false

/-- Whether two values have the same structure. -/
def same (m : Memory) (a b : Value) : Bool :=
  m.sameTo m.levels a b

end Lingo.Memory
