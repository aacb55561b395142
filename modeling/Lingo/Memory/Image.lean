import Lingo.Memory

/-!
# Images of values

An `Image` is what a value looks like at one moment: the tree of containers
below it, with the contents they have then. Where a container occurs within
itself, the image says how many containers further out it is.
-/

namespace Lingo

/-- A value with its contents. -/
inductive Image where
  /-- A value that holds no cells. -/
  | plain (v : Value)
  | point (p : Point)
  | rect (r : Rect)
  | list (items : List Image)
  | argList (items : List Image)
  | argListNoRet (items : List Image)
  | propList (entries : List (String × Image))
  /-- The container `levels` levels further out; 1 is the innermost one. -/
  | cycle (levels : Nat)
  deriving Repr, Inhabited

namespace Memory

/-- The image of a value within the containers `outer`, innermost first. -/
def imageTo (m : Memory) : Nat → List Value → Value → Image
  | 0, _, v => .plain v
  | fuel + 1, outer, v =>
    match outer.findIdx? (· == v) with
    | some i => .cycle (i + 1)
    | none =>
      let inside := m.imageTo fuel (v :: outer)
      match v with
      | .point cell => .point (m.point cell)
      | .rect cell => .rect (m.rect cell)
      | .list cell => .list ((m.list cell).toList.map inside)
      | .argList cell => .argList ((m.list cell).toList.map inside)
      | .argListNoRet cell => .argListNoRet ((m.list cell).toList.map inside)
      | .propList cell => .propList ((m.props cell).entries.map fun (k, v) => (k, inside v))
      | v => .plain v

/-- What a value looks like now. -/
def image (m : Memory) (v : Value) : Image :=
  m.imageTo m.levels [] v

end Memory

end Lingo
