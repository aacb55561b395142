import Lingo.Run.Activate

/-!
# What the host does with a machine

The host calls handlers, builtin functions and methods from outside any handler.
Each of these ends with a result or a fault, and leaves the machine in the state
for the next one, unless the run breaks off (`Host.answer?`).
-/

namespace Lingo.Host

open Machine

/-- Calls a builtin function or a handler by name. -/
def call (name : String) (args : Array Value) : Action Value := do
  callHandler (← get).calls name args

/-- Calls a handler by name on a receiver. -/
def callOn (name : String) (args : Array Value) (receiver : Value) : Action Value := do
  callHandlerOn (← get).calls name args receiver

/-- Runs a handler. A receiver becomes the first argument. -/
def run (site : HandlerSite) (args : Array Value) (receiver? : Option Value) : Action Value := do
  execute (← get).calls site args receiver?

/-- Runs a handler on a receiver; a fault stops the machine. -/
def runContained (site : HandlerSite) (args : Array Value) (receiver : Value) : Update Value := do
  executeContained (← get).calls site args receiver

/-- Calls a builtin function, or one of the host's own, by name. -/
def callBuiltin (name : String) (args : Array Value) : Action Value := do
  invoke (← get).calls name args

/-- Calls a method of a value. -/
def callMethod (target : Value) (name : String) (args : Array Value) : Action Value := do
  Machine.callMethod (← get).calls target name args

/-- Creates an object with the given properties. -/
def newObject (script : Option ScriptRef) (properties : List (String × Value)) : Update Value := do
  return .object (← onMemory (Alloc.newObject { script, properties := .ofList properties }))

/-- A copy of a value that shares no container with it. -/
def copy (v : Value) : Update Value :=
  onMemory (Memory.copy v)

/-- Carries out an action: its outcome, and the machine as it is then. -/
def perform {α : Type} (action : Action α) (m : Machine) : Except Fault α × Machine :=
  action.run.run m

/-- What comes of an action, if the run does not break off. -/
def answer? {α : Type} (action : Action α) (m : Machine) : Option (Except Fault α × Machine) :=
  let e := perform action m
  if e.2.brokeOff then none else some e

/-! ## Objects in use -/

/-- The objects that values hold themselves, not within containers. -/
def heldObjects (vs : List Value) : List ObjectId :=
  vs.filterMap fun
    | .object id => some id
    | _ => none

/-- Adds the objects of `todo`, and those that their properties hold, to those
found already, in at most `fuel` rounds. -/
def reach (heap : Heap) : Nat → List ObjectId → List ObjectId → List ObjectId
  | 0, _, found => found
  | _, [], found => found
  | fuel + 1, id :: todo, found =>
    match heap.get? id with
    | none => reach heap fuel todo found
    | some object =>
      if found.contains id then reach heap fuel todo found
      else reach heap fuel (heldObjects object.properties.values ++ todo) (id :: found)

/-- Objects that values hold, directly or by way of properties of such objects,
in the order of their creation. -/
def objectsInUse (heap : Heap) (roots : List Value) : List ObjectId :=
  let links := heap.objects.foldl (fun n o => n + o.properties.size) 0
  let found := reach heap (links + roots.length + 1) (heldObjects roots) []
  found.mergeSort fun a b => a.index ≤ b.index

end Lingo.Host
