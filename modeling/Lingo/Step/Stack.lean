import Lingo.Machine.State
import Lingo.Memory.Arithmetic
import Lingo.Memory.Compare

/-!
# Instructions on operands

Constants, moves on the operand stack, list construction, arithmetic,
comparison and logic. Binary operations find their right operand on top.
-/

namespace Lingo.Step

open Machine Number

/-! ## Constants and moves -/

/-- A literal as a value. -/
def literalValue : Literal → Value
  | .text s => .text s
  | .int n => .int n
  | .float x => .float x

/-- Pushes a literal of the running script; a number outside its table pushes
void. -/
def pushLiteral (id : Int32) : Update Unit := do
  let literal? := (← get).top?.bind fun top =>
    if id.toInt < 0 then none else top.script.literals[id.toInt.toNat]?
  push ((literal?.map literalValue).getD .void)

/-- Pushes the single whose bits are the argument. -/
def pushSingle (bits : Int32) : Update Unit :=
  push (.float (Single.mk bits.toUInt32).toDouble)

def pushSymbol (id : Int32) : Update Unit := do
  push (.symbol ((← get).name id))

/-- Exchanges the two topmost operands. -/
def swap : Update Unit :=
  modify (·.onTop Frame.swap)

/-- Drops operands, at least one. -/
def discard (count : Int32) : Update Unit :=
  modify (·.onTop (·.discard (max count.toInt 1).toNat))

/-- Pushes the operand some places below the top again. -/
def peek (depth : Int32) : Update Unit := do
  let value := ((← get).top?.map (·.peek depth.toInt.toNat)).getD .void
  push value

/-! ## Lists -/

/-- Makes a list of arguments. -/
def pushList : Update Unit := do
  let v ← pop
  let items := (← get).memory.arguments v
  push (← onMemory (Alloc.newList items))

/-- Keys and values that alternate; a last key without a value is dropped. -/
def alternating (m : Memory) : List Value → List (String × Value)
  | key :: value :: rest => (m.text key, value) :: alternating m rest
  | _ => []

/-- Makes a property list of alternating keys and values. -/
def pushPropList : Update Unit := do
  let v ← pop
  let m := (← get).memory
  let entries := Bindings.ofList (alternating m ((m.args? v).getD #[]).toList)
  push (← onMemory (Alloc.newPropList entries))

/-- Gathers operands into an argument list. -/
def pushArgList (count : Int32) (used : Bool) : Update Unit := do
  let items ← popMany count.toInt.toNat
  push (← onMemory (if used then Alloc.newArgList items else Alloc.newArgListNoRet items))

/-! ## Arithmetic -/

def arithmetic (op : ArithOp) : Update Unit := do
  let b ← pop
  let a ← pop
  push (← onMemory (Memory.combine op a b))

def divide (i : Instruction) : Action Unit := do
  let b ← pop
  let a ← pop
  match a.quotient? b with
  | some v => push v
  | none => throw (.divisionByZero (← get).handlerName i.offset)

def modulo (i : Instruction) : Action Unit := do
  let b ← pop
  let a ← pop
  match a.remainder? b with
  | some v => push v
  | none => throw (.moduloByZero (← get).handlerName i.offset)

def negate : Update Unit := do
  let a ← pop
  push (← onMemory (Memory.negate a))

/-! ## Comparison and logic -/

/-- Pushes whether two operands are in an accepted order; unordered ones are
not. -/
def ordered (accept : Ordering → Bool) : Update Unit := do
  let b ← pop
  let a ← pop
  push (.ofBool ((a.compare? b).any accept))

def equal (negated : Bool) : Update Unit := do
  let b ← pop
  let a ← pop
  push (.ofBool ((← get).memory.equals a b != negated))

def logic (op : Bool → Bool → Bool) : Update Unit := do
  let b ← pop
  let a ← pop
  push (.ofBool (op a.truthy b.truthy))

def not : Update Unit := do
  let a ← pop
  push (.ofBool !a.truthy)

end Lingo.Step
