import Lingo.Heap

/-!
# Memory

The cells that values of the container kinds refer to, and the heap of script
objects. A cell is created with its contents and keeps its place for good, so
a handle is the position of its cell; one that addresses no cell reads as an
empty container.

Operations that create cells run in `Alloc`, the state monad over memories.

A run may break off in the middle of an operation, without a result and without a
fault. Such a memory is marked as `broken` for good, and what becomes of it afterwards
means nothing.
-/

namespace Lingo

/-- All shared cells and all script objects of a session. -/
structure Memory where
  /-- Elements of lists and of argument lists. -/
  lists : Array (Array Value) := #[]
  propLists : Array (Bindings Value) := #[]
  points : Array Point := #[]
  rects : Array Rect := #[]
  heap : Heap := {}
  /-- An operation had to read a container while it was writing to it. -/
  broken : Bool := false
  deriving DecidableEq, Repr, Inhabited

/-- Computations that may create cells. -/
abbrev Alloc (α : Type) := StateM Memory α

namespace Memory

/-- Elements of a list cell. -/
def list (m : Memory) (cell : Nat) : Array Value :=
  m.lists[cell]?.getD #[]

/-- Entries of a property list cell. -/
def props (m : Memory) (cell : Nat) : Bindings Value :=
  m.propLists[cell]?.getD {}

/-- Contents of a point cell. -/
def point (m : Memory) (cell : Nat) : Point :=
  m.points[cell]?.getD ⟨0, 0⟩

/-- Contents of a rect cell. -/
def rect (m : Memory) (cell : Nat) : Rect :=
  m.rects[cell]?.getD ⟨0, 0, 0, 0⟩

/-- Changes the elements of a list cell. -/
def modifyList (m : Memory) (cell : Nat) (f : Array Value → Array Value) : Memory :=
  { m with lists := m.lists.modify cell f }

/-- Changes the entries of a property list cell. -/
def modifyProps (m : Memory) (cell : Nat) (f : Bindings Value → Bindings Value) : Memory :=
  { m with propLists := m.propLists.modify cell f }

/-- Changes a point cell. -/
def modifyPoint (m : Memory) (cell : Nat) (f : Point → Point) : Memory :=
  { m with points := m.points.modify cell f }

/-- Changes a rect cell. -/
def modifyRect (m : Memory) (cell : Nat) (f : Rect → Rect) : Memory :=
  { m with rects := m.rects.modify cell f }

/-- Changes the heap. -/
def modifyHeap (m : Memory) (f : Heap → Heap) : Memory :=
  { m with heap := f m.heap }

/-- Marks the memory as broken if something is the case. -/
def breakOffIf (m : Memory) (clash : Bool) : Memory :=
  { m with broken := m.broken || clash }

@[simp] theorem breakOffIf_false (m : Memory) : m.breakOffIf false = m := by
  rw [breakOffIf, Bool.or_false]

/-- Elements of an argument list of either kind. -/
def args? (m : Memory) : Value → Option (Array Value)
  | .argList cell | .argListNoRet cell => some (m.list cell)
  | _ => none

/-- The arguments that a value stands for: those of an argument list, none for
void, and the value itself otherwise. -/
def arguments (m : Memory) (v : Value) : Array Value :=
  match m.args? v with
  | some items => items
  | none => if v.isVoid then #[] else #[v]

/-- One more than the longest way into containers that do not contain
themselves: each level of nesting is a cell of its own. -/
def levels (m : Memory) : Nat :=
  m.lists.size + m.propLists.size + 1

end Memory

namespace Alloc

/-- A new cell with the given elements. -/
def newCell (items : Array Value) : Alloc Nat :=
  modifyGet fun m => (m.lists.size, { m with lists := m.lists.push items })

def newList (items : Array Value) : Alloc Value :=
  return .list (← newCell items)

def newArgList (items : Array Value) : Alloc Value :=
  return .argList (← newCell items)

def newArgListNoRet (items : Array Value) : Alloc Value :=
  return .argListNoRet (← newCell items)

def newPropList (entries : Bindings Value) : Alloc Value :=
  modifyGet fun m =>
    (.propList m.propLists.size, { m with propLists := m.propLists.push entries })

def newPoint (p : Point) : Alloc Value :=
  modifyGet fun m => (.point m.points.size, { m with points := m.points.push p })

def newRect (r : Rect) : Alloc Value :=
  modifyGet fun m => (.rect m.rects.size, { m with rects := m.rects.push r })

def newObject (object : Object) : Alloc ObjectId :=
  modifyGet fun m =>
    let (id, heap) := m.heap.alloc object
    (id, { m with heap })

/-- A new object like the one with a handle, if there is one. -/
def cloneObject? (id : ObjectId) : Alloc (Option ObjectId) :=
  modifyGet fun m =>
    match m.heap.clone? id with
    | some (copy, heap) => (some copy, { m with heap })
    | none => (none, m)

end Alloc

end Lingo
