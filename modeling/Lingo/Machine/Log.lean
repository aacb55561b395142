import Lingo.Memory.Image
import Lingo.Code.Library

/-!
# Logs and traces

A machine keeps a log of what it reports. Besides, a tracer may watch it: a
recording tracer keeps `TraceEvent`s with images of the values as they are at
that moment, and a logging tracer writes the events to the log.

A line of the log in which a value is displayed has no end if that value contains
itself. The run breaks off there.
-/

namespace Lingo

inductive LogLevel where
  | trace | debug | info | warn | error
  deriving DecidableEq, Repr, Inhabited

/-- The part of a machine that a log entry is about. -/
inductive LogTarget where
  /-- Values, variables and instructions. -/
  | vm
  /-- Calls of handlers. -/
  | call
  /-- What scripts print. -/
  | put
  /-- What a logging tracer writes. -/
  | trace
  deriving DecidableEq, Repr, Inhabited

/-- An entry of the log. -/
structure LogEntry where
  level : LogLevel
  target : LogTarget
  message : String
  /-- Named details. -/
  fields : List (String × String) := []
  /-- The message comes to an end. -/
  ends : Bool := true
  deriving DecidableEq, Repr, Inhabited

/-- The kinds of variables that scripts assign to. -/
inductive VariableKind where
  | global | property | param | localVar | field
  deriving DecidableEq, Repr, Inhabited

def VariableKind.name : VariableKind → String
  | .global => "global"
  | .property => "property"
  | .param => "param"
  | .localVar => "local"
  | .field => "field"

/-- A call of a handler as a tracer sees it. -/
structure CallInfo where
  name : String
  member : Int32
  kind : ScriptKind
  args : Array Value
  receiver : Value
  localCount : Nat
  paramCount : Nat
  /-- Active handlers, this one included. -/
  depth : Nat

/-- What a recording tracer keeps. -/
inductive TraceEvent where
  /-- A handler starts. -/
  | enter (call : CallInfo) (args : List Image) (receiver : Image)
  /-- A handler ends with a result. -/
  | exit (call : CallInfo) (result : Image)
  /-- An instruction is about to be executed, with `stackSize` operands, the
  topmost of which are `top`. -/
  | instruction (index : Nat) (instruction : Instruction) (stackSize : Nat) (top : List Image)
  | set (kind : VariableKind) (name : String) (value : Image)
  /-- A handler fails. -/
  | failed (handler message : String)

/-- How a machine is watched. -/
inductive Tracer where
  | record | log
  deriving DecidableEq, Repr, Inhabited

/-- Operands that a trace event shows. -/
def tracedOperands : Nat := 10

end Lingo
