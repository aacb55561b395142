import Lingo.Machine.Calls
import Lingo.Method.List
import Lingo.Method.PropList
import Lingo.Text.Quoted

/-!
# Methods of script objects

A fixed set of methods reads and writes properties. Any other method is a
handler of the object's script or of an ancestor's, and failing that the
property with the name of the method. Faults of handlers do not spread.
-/

namespace Lingo

inductive ObjectMethod where
  | setAt | setProp | getAt | getaProp | getProp | addProp | deleteProp | count | ilk | addAt
  deriving DecidableEq, Repr

namespace ObjectMethod

open Machine

def table : MethodTable ObjectMethod :=
  [("setat", setAt), ("setaprop", setAt), ("setprop", setProp), ("getat", getAt),
   ("getaprop", getaProp), ("getprop", getProp), ("getpropref", getProp), ("addprop", addProp),
   ("deleteprop", deleteProp), ("count", count), ("ilk", ilk), ("addat", addAt)]

/-- Sets the object's own property that a key names. -/
def assign (id : ObjectId) (key value : Value) : Update Unit := do
  setOwnProp id ((← get).memory.text key) value

/-- The property that a key names, along the ancestor chain. -/
def lookUp (m : Machine) (id : ObjectId) (key : Value) : Value :=
  m.memory.heap.propertyFolded id (m.memory.text key)

/-- The element of a container that a position or key addresses. -/
def element (m : Memory) (container sub : Value) : Value :=
  match container with
  | .list cell => (sub.position?.bind fun i => (m.list cell)[i]?).getD .void
  | .propList cell =>
    let key := m.text sub
    (((m.props cell).get? key) <|> ((m.props cell).getFolded? key)).getD .void
  | _ => .void

/-- The container in a property; one that is void becomes an empty property
list. -/
def nestedContainer (id : ObjectId) (prop : String) : Update Value := do
  let held := (← get).memory.heap.property id prop
  if held.isVoid then
    let fresh ← onMemory (Alloc.newPropList {})
    Machine.setProp id prop fresh
    return fresh
  else return held

/-- Writes into the container that a property holds. -/
def setNested (id : ObjectId) (key sub value : Value) : Update Unit := do
  let prop := (← get).memory.text key
  match ← nestedContainer id prop with
  | .list cell =>
    match sub.position? with
    | some i => onMemory (modify (·.modifyList cell fun items => ListMethod.store items i value))
    | none => pure ()
  | .propList cell => onMemory (PropListMethod.bind cell sub value)
  | held =>
    report .debug .vm ("setProp: #" ++ prop ++ " holds " ++ held.typeName ++ ", not a container")

/-- Creates an object of each named script and links each to the one before,
`previous`. Yields the first object created, or none at all if one of them
failed. -/
def linkAncestors (c : Calls) :
    List Value → Option ObjectId → Option ObjectId → Update (Option (Option ObjectId))
  | [], first, _ => pure (some first)
  | name :: rest, first, previous => do
    let name := (← get).memory.text name
    match (← get).scriptNamed? name with
    | none =>
      report .warn .vm ("ancestor chain: no script named " ++ Text.quote name)
      linkAncestors c rest first previous
    | some ref =>
      let made? ← contained (construct c #[.script ref]) fun fault =>
        "Error in new: " ++ fault.message
      match made? with
      | none => pure none
      | some (.object created) =>
        match previous with
        | some id => setOwnProp id ancestorName (.object created)
        | none => pure ()
        linkAncestors c rest (first <|> some created) (some created)
      | some v =>
        report .warn .vm ("ancestor chain: new(" ++ name ++ ") returned " ++ v.typeName)
        linkAncestors c rest first previous

/-- Makes new objects of the named scripts, at most `Heap.maxChain` of them, the
ancestors of an object. -/
def buildAncestors (c : Calls) (id : ObjectId) (names : List Value) : Update Unit := do
  match ← linkAncestors c (names.take Heap.maxChain) none none with
  | some (some first) => setOwnProp id ancestorName (.object first)
  | _ => pure ()

/-- Calls one of the fixed methods. -/
def run (c : Calls) (id : ObjectId) (args : Array Value) : ObjectMethod → Update Value
  | setAt | addProp => do
    match args[0]?, args[1]? with
    | some key, some value => assign id key value
    | _, _ => pure ()
    return .void
  | setProp => do
    match args.toList with
    | [key, value] => assign id key value
    | key :: sub :: value :: _ => setNested id key sub value
    | _ => pure ()
    return .void
  | getAt => do
    match args[0]? with
    | none => return .void
    | some key =>
      let m ← get
      if Text.sameName (m.memory.text key) ancestorName then
        match m.memory.heap.own? id ancestorName with
        | some value => return if value.isVoid then .int 0 else value
        | none => return .int 0
      else return lookUp m id key
  | getaProp => do
    match args[0]? with
    | some key => return lookUp (← get) id key
    | none => return .void
  | getProp => do
    match args[0]? with
    | none => return .void
    | some key =>
      let m ← get
      let value := lookUp m id key
      match args[1]? with
      | some sub => return element m.memory value sub
      | none => return value
  | deleteProp => do
    match args[0]? with
    | some key =>
      let name := (← get).memory.text key
      modifyHeap (·.modify id fun o => { o with properties := o.properties.erase name })
    | none => pure ()
    return .void
  | count => do
    return .ofNat (((← get).memory.heap.get? id).elim 0 fun o => o.properties.size)
  | ilk => return .symbol "instance"
  | addAt => do
    match args[0]?, args[1]? with
    | some position, some names =>
      match position, names with
      | .int n, .list cell =>
        if n == 1 then buildAncestors c id ((← get).memory.list cell).toList else pure ()
      | _, _ => pure ()
    | _, _ => pure ()
    return .void

end ObjectMethod

namespace Machine

/-- Calls a method of a script object. -/
def callObject (c : Calls) (id : ObjectId) (name : String) (args : Array Value) : Update Value := do
  match ObjectMethod.table.find? name with
  | some method => method.run c id args
  | none =>
    match (← get).findObjectHandler? id name with
    | some site => executeContained c site args (.object id)
    | none => return (← get).memory.heap.propertyFolded id name

end Machine

end Lingo
