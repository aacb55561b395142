import Lingo.Machine.State
import Lingo.Text.Column

/-!
# Watching a run

What a tracer is told when handlers start, end or fail and when instructions
are executed (`Machine.notify`). Nothing else of the machine changes. The lines of a
logging tracer show values, and have no end if one of these contains itself.
-/

namespace Lingo.Machine

/-- The detail of a log entry that tells the number of active handlers. -/
def depthField (depth : Nat) : String × String :=
  ("depth", toString depth)

/-- The handler that has just started, as a tracer sees it. -/
def callInfo (m : Machine) (frame : Frame) : CallInfo where
  name := frame.site.name
  member := frame.script.member
  kind := frame.script.kind
  args := frame.args
  receiver := frame.receiver
  localCount := frame.handler.localCount
  paramCount := frame.handler.params.length
  depth := m.depth

/-- The line of a logging tracer for a handler that starts. -/
def enterTrace (call : CallInfo) (memory : Memory) : Option String :=
  (call.args.toList.mapM memory.display?).map fun shown =>
    "== " ++ call.name ++ "(" ++ ", ".intercalate shown ++ ")"

/-- Tells the tracer that a handler starts. -/
def noteEnter (call : CallInfo) : Update Unit :=
  notify
    (fun memory => .enter call (call.args.toList.map memory.image) (memory.image call.receiver))
    (enterTrace call)
    [depthField call.depth, ("script", toString call.member.toInt), ("kind", call.kind.name)]

/-- Tells the tracer that a handler ends with a result. -/
def noteExit (call : CallInfo) (result : Value) : Update Unit :=
  notify (fun memory => .exit call (memory.image result))
    (fun memory => (memory.display? result).map ("== " ++ call.name ++ " returned " ++ ·))
    [depthField call.depth]

/-- Tells the tracer that a handler fails. -/
def noteFailure (handler : String) (fault : Fault) : Update Unit :=
  notify (fun _ => .failed handler fault.message)
    (fun _ => some <| "Error in " ++ handler ++ ": " ++ fault.message)

/-- The line of a logging tracer for an instruction. -/
def instructionTrace (i : Instruction) (stack : List Value) (memory : Memory) : Option String :=
  (stack.head?.elim (some "") memory.display?).map fun top =>
    "[" ++ Text.padLeft 4 ' ' (toString i.offset) ++ "] " ++
      Text.padRight 18 i.opcode.mnemonic ++ " " ++
      Text.padLeft 6 ' ' (toString i.argument.toInt) ++ "  stack=" ++ toString stack.length ++
      " top=" ++ top

/-- Tells the tracer of the instruction at an index, which is about to be
executed on an operand stack. -/
def noteInstruction (index : Nat) (i : Instruction) (stack : List Value) : Update Unit :=
  notify
    (fun memory => .instruction index i stack.length ((stack.take tracedOperands).map memory.image))
    (instructionTrace i stack)

end Lingo.Machine
