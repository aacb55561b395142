import Lingo.Memory.Display

/-!
# Tables of methods

The methods of a kind of value are found by their names in lower case. This
module also holds how arguments are read: by position, as integers, and as
positions in a container, which scripts count from 1.
-/

namespace Lingo

/-- Names in lower case and what they mean, in the order in which they are
listed. -/
abbrev MethodTable (α : Type) := List (String × α)

/-- What a name, in any case, means. -/
def MethodTable.find? {α : Type} (table : MethodTable α) (name : String) : Option α :=
  table.lookup (Text.asciiLower name)

/-- The argument at a position; void when there is none. -/
def argAt (args : Array Value) (i : Nat) : Value :=
  args[i]?.getD .void

/-- The argument at a position as an integer; 0 when there is none. -/
def intArgAt (args : Array Value) (i : Nat) : Int32 :=
  (argAt args i).toInt32

/-- The index that a position stands for; positions below 1 stand for none. -/
def Value.position? (v : Value) : Option Nat :=
  if 1 ≤ v.toInt32.toInt then some (v.toInt32.toInt.toNat - 1) else none

/-- The index that the first argument stands for. -/
def positionArg? (args : Array Value) : Option Nat :=
  args[0]?.bind Value.position?

/-- A count as a value. -/
def Value.ofNat (n : Nat) : Value :=
  .int (Int32.ofNat n)

end Lingo
