import Lingo.Machine.State

/-!
# Returns and jumps

Jump arguments are distances in bytes from the jump itself. A jump to the end of
the code ends the handler; one that leads to no instruction is reported and not
taken.
-/

namespace Lingo.Step

open Machine

/-- Returns the topmost operand. -/
def ret : Update Unit := do
  let v ← pop
  modify (·.onTop (·.finish v))

/-- Returns void. -/
def retFactory : Update Unit :=
  modify (·.onTop (·.finish .void))

/-- The index of the instruction that an offset leads to. -/
def jumpIndex? (m : Machine) (target : Int) : Option Nat :=
  m.top?.bind (·.indexAt? target)

def reportLostJump (i : Instruction) (target : Int) : Update Unit := do
  let handler := (← get).handlerName
  report .warn .vm
    s!"jump from offset {i.offset} to {target} does not land on an instruction in {handler}"

/-- Goes to the instruction at an offset. -/
def jump (i : Instruction) (target : Int) : Update Unit := do
  match jumpIndex? (← get) target with
  | some index => modify (·.onTop (·.goto index))
  | none => reportLostJump i target

/-- Jumps if the topmost operand is false. -/
def jumpIfFalse (i : Instruction) : Update Unit := do
  let v ← pop
  if v.truthy then pure () else jump i (i.offset + i.argument.toInt)

/-- Goes back to the head of a loop. -/
def endRepeat (i : Instruction) : Update Unit := do
  match jumpIndex? (← get) (i.offset - i.argument.toInt) with
  | some index => modify (·.onTop (·.repeatFrom index))
  | none => jump i (i.offset + (-i.argument).toInt)

end Lingo.Step
