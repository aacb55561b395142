import Lingo.Builtin.Builtin

/-!
# Calls

Every call takes one argument list from the operand stack. Its kind decides
whether the result is pushed.
-/

namespace Lingo.Step

open Machine

/-- Takes an argument list: the arguments, and whether the result is used. -/
def popArguments : Update (Array Value × Bool) := do
  let v ← pop
  let args := (← get).memory.arguments v
  match v with
  | .argListNoRet _ => return (args, false)
  | _ => return (args, true)

def pushResult (result : Value) (used : Bool) : Update Unit :=
  if used then push result else pure ()

/-- The handler of the running script at a vector position, or else at an
index. -/
def localHandler? (m : Machine) (position : Int32) : Option HandlerSite := do
  let top ← m.top?
  let index? :=
    match top.script.handlers.findIdx? (·.vectorPos == position) with
    | some i => some i
    | none => if position.toInt < 0 then none else some position.toInt.toNat
  HandlerSite.at? top.library top.script (← index?)

/-- Calls `callee` on the arguments that the operand stack holds, and pushes its
result if it is used. -/
def callWith (callee : Array Value → Action Value) : Action Unit := do
  let (args, used) ← popArguments
  let result ← callee args
  pushResult result used

/-- Runs a handler of the running script; it keeps the receiver. -/
def runLocal (c : Calls) (position : Int32) (args : Array Value) : Action Value := do
  let m ← get
  match localHandler? m position with
  | none =>
    report .debug .call
      ("no local handler " ++ toString position.toInt ++ " in " ++ m.handlerName)
    return .void
  | some site => c.activate site args m.receiver

/-- Calls a handler of the running script. -/
def localCall (c : Calls) (position : Int32) : Action Unit :=
  callWith (runLocal c position)

/-- Calls a builtin function or a handler by name. -/
def extCall (c : Calls) (id : Int32) : Action Unit :=
  callWith fun args => do callHandler c ((← get).name id) args

/-- Calls a method of the first argument. -/
def objCall (c : Calls) (id : Int32) : Action Unit :=
  callWith fun args => do
    callMethod c (argAt args 0) ((← get).name id) (args.extract 1 args.size)

/-- The object or script that the innermost `tell` block addresses. -/
def toldTarget? (m : Machine) : Option Value :=
  match m.top?.bind (·.tells.head?) with
  | some (.object id) => some (.object id)
  | some (.script ref) => some (.script ref)
  | _ => none

/-- Calls a method of the object or script that the innermost `tell` block
addresses, or else by name. -/
def tellCall (c : Calls) (id : Int32) : Action Unit :=
  callWith fun args => do
    let m ← get
    match toldTarget? m with
    | some target => callMethod c target (m.name id) args
    | none => callHandler c (m.name id) args

def startTell : Update Unit := do
  let target ← pop
  modify (·.onTop (·.pushTell target))

def endTell : Update Unit :=
  modify (·.onTop Frame.popTell)

/-- Makes an object of a script by name. -/
def makeObject (c : Calls) (name : String) (args : Array Value) : Action Value := do
  match (← get).scriptNamed? name with
  | some ref => construct c (#[.script ref] ++ args)
  | none =>
    report .warn .vm ("NEW_OBJ: no script named " ++ Text.quote name)
    return .void

/-- Creates an object of a script by name. -/
def newObj (c : Calls) (id : Int32) : Action Unit :=
  callWith fun args => do makeObject c ((← get).name id) args

end Lingo.Step
