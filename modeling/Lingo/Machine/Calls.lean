import Lingo.Machine.State

/-!
# Calls

How handlers are called. The operations here and in the modules of methods,
builtin functions and instructions do not run handlers themselves: they are
given `Calls`, the two ways back into the interpreter, and the interpreter is
tied together in `Lingo.Run.Activate`.
-/

namespace Lingo

/-- The ways back into the interpreter. -/
structure Calls where
  /-- Runs a handler with arguments, the receiver among them, and a receiver. -/
  activate : HandlerSite → Array Value → Value → Action Value
  /-- Calls a handler or builtin function by name, on behalf of the host. -/
  reenter : String → Array Value → Action Value

namespace Machine

/-- Runs a handler. A receiver becomes the first argument. -/
def execute (c : Calls) (site : HandlerSite) (args : Array Value) (receiver? : Option Value) :
    Action Value :=
  match receiver? with
  | some receiver => c.activate site (#[receiver] ++ args) receiver
  | none => c.activate site args .void

/-- Reports a fault and stops the machine. -/
def stopWith (message : String) : Update Unit := do
  report .error .vm message
  setStopped true

/-- Carries out an action and keeps its faults from spreading: one is reported
and stops the machine, and there is no result. -/
def contained {α : Type} (action : Action α) (message : Fault → String) : Update (Option α) := do
  match ← action.run with
  | .ok result => return some result
  | .error fault =>
    stopWith (message fault)
    return none

/-- Runs a handler on a receiver with its faults contained: the call that fails
yields void. -/
def executeContained (c : Calls) (site : HandlerSite) (args : Array Value) (receiver : Value) :
    Update Value := do
  let result? ← contained (execute c site args (some receiver)) fun fault =>
    "Error in " ++ site.name ++ ": " ++ fault.message
  return result?.getD .void

/-- Calls a function of the host. -/
def callHost (c : Calls) (args : Array Value) : HostFunction → Action Value
  | .constant v => pure v
  | .collect => sure (onMemory (Alloc.newList args))
  | .raise message => throw (.script message)
  | .forward name => c.reenter name args
  | .measure => do
    let m ← get
    let items := #[.int (Int32.ofNat m.depth), .int m.slotScale]
    sure (onMemory (Alloc.newList items))

/-- Creates an object of a script, its declared properties void, and runs the
script's `new` handler on it. What the handler returns, unless it is void, takes
the place of the object. -/
def instantiate (c : Calls) (ref : ScriptRef) (args : Array Value) : Action Value := do
  let properties := ((← get).scriptProperties ref).map fun name => (name, Value.void)
  let object : Object := { script := some ref, properties := .ofList properties }
  let id ← sure (onMemory (Alloc.newObject object))
  match (← get).findHandlerIn? ref "new" with
  | none => return .object id
  | some site =>
    let result ← execute c site args (some (.object id))
    return if result.isVoid then .object id else result

/-- The builtin function `new`: creates an object of a script, or a copy of an
object. -/
def newObject (c : Calls) (args : Array Value) : Action Value := do
  match args[0]?.getD .void with
  | .script ref => instantiate c ref (args.extract 1 args.size)
  | .object id =>
    match ← sure (onMemory (Alloc.cloneObject? id)) with
    | some copy => return .object copy
    | none => return .void
  | v =>
    report .debug .vm ("new: cannot instantiate " ++ v.typeName)
    return .void

/-- Calls `new`, which the host may have replaced. -/
def construct (c : Calls) (args : Array Value) : Action Value := do
  match (← get).hosts.lookup "new" with
  | some f => callHost c args f
  | none => newObject c args

end Machine

end Lingo
