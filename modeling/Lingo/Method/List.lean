import Lingo.Machine.Config
import Lingo.Memory.Compare
import Lingo.Memory.Copy
import Lingo.Method.Table

/-!
# Methods of lists

Positions count from 1. Reading past the end gives void, and writing past the
end fills the gap with void.
-/

namespace Lingo

inductive ListMethod where
  | count | getAt | setAt | append | addAt | deleteAt | findPos | getLast | deleteOne | join
  | sort | duplicate
  deriving DecidableEq, Repr

namespace ListMethod

def table : MethodTable ListMethod :=
  [("count", count), ("getat", getAt), ("setat", setAt), ("append", append), ("add", append),
   ("addat", addAt), ("deleteat", deleteAt), ("getone", findPos), ("findpos", findPos),
   ("getpos", findPos), ("getlast", getLast), ("deleteone", deleteOne), ("join", join),
   ("sort", sort), ("duplicate", duplicate)]

/-- Stores an element, filling up with void if the list is shorter. -/
def store (items : Array Value) (i : Nat) (v : Value) : Array Value :=
  if i < items.size then items.setIfInBounds i v
  else (items ++ Array.replicate (i - items.size) Value.void).push v

/-- Inserts an element before the one at an index. -/
def insertBefore (items : Array Value) (i : Nat) (v : Value) : Array Value :=
  items.extract 0 i ++ #[v] ++ items.extract i items.size

/-- Adds an element at an index under a policy. -/
def addElement (policy : AddAtPolicy) (items : Array Value) (i : Nat) (v : Value) : Array Value :=
  match policy with
  | .insertAlways => insertBefore items (min i items.size) v
  | .replaceVoid =>
    match items[i]? with
    | none => store items i v
    | some old => if old.isVoid then items.setIfInBounds i v else insertBefore items i v

/-- Index of the first element with the structure of a value. -/
def indexOf? (m : Memory) (cell : Nat) (v : Value) : Option Nat :=
  (m.list cell).findIdx? (m.same · v)

/-- Elements in ascending order; equal ones keep their order. -/
def sorted (m : Memory) (items : Array Value) : Array Value :=
  (items.toList.mergeSort fun a b => m.sortOrder a b != .gt).toArray

/-- Sorts a list. While it is being sorted the list counts as empty, should an
element contain it. -/
def sortCell (cell : Nat) (m : Memory) : Memory :=
  let items := m.list cell
  let m := m.modifyList cell fun _ => #[]
  let items := sorted m items
  m.modifyList cell fun _ => items

/-- Calls a method of a list. -/
def run (policy : AddAtPolicy) (cell : Nat) (args : Array Value) : ListMethod → Alloc Value
  | count => return .ofNat ((← get).list cell).size
  | getAt => do
    match positionArg? args with
    | some i => return ((← get).list cell)[i]?.getD .void
    | none => return .void
  | setAt => do
    match positionArg? args, args[1]? with
    | some i, some v => modify (·.modifyList cell fun items => store items i v)
    | _, _ => pure ()
    return .void
  | append => do
    match args[0]? with
    | some v => modify (·.modifyList cell (·.push v))
    | none => pure ()
    return .void
  | addAt => do
    match args[0]?, args[1]? with
    | some position, some v =>
      let i := (position.toInt32 - 1).toInt.toNat
      modify (·.modifyList cell fun items => addElement policy items i v)
    | _, _ => pure ()
    return .void
  | deleteAt => do
    match positionArg? args with
    | some i => modify (·.modifyList cell fun items => items.eraseIdxIfInBounds i)
    | none => pure ()
    return .void
  | findPos => do
    match args[0]? with
    | some v => return .ofNat ((indexOf? (← get) cell v).elim 0 (· + 1))
    | none => return .int 0
  | getLast => return ((← get).list cell).back?.getD .void
  | deleteOne => do
    match args[0]? with
    | some v =>
      match indexOf? (← get) cell v with
      | some i => modify (·.modifyList cell fun items => items.eraseIdxIfInBounds i)
      | none => pure ()
    | none => pure ()
    return .void
  | join => do
    let m ← get
    let separator := (args[0]?.map m.text).getD ""
    return .text (separator.intercalate ((m.list cell).toList.map m.text))
  | sort => do
    modify (sortCell cell)
    return .void
  | duplicate => Memory.copy (.list cell)

end ListMethod

end Lingo
