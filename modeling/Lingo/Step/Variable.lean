import Lingo.Chunk.Edit
import Lingo.Machine.State

/-!
# Variables

Instructions name parameters and locals by slots scaled by the library's
`slotScale`, and globals and properties by name numbers. `put` and the chunk
instructions address a variable by a kind and an operand instead.
-/

namespace Lingo.Step

open Machine

/-- The slot that a scaled slot stands for; a negative one stands for none. -/
def slot? (m : Machine) (raw : Int32) : Option Nat :=
  if raw.toInt < 0 then none else some (raw.toInt.toNat / m.slotScale.toInt.toNat)

def paramAt (m : Machine) (raw : Int32) : Value :=
  match slot? m raw, m.top? with
  | some i, some top => top.paramAt i
  | _, _ => .void

def localAt (m : Machine) (raw : Int32) : Value :=
  match slot? m raw, m.top? with
  | some i, some top => top.localAt i
  | _, _ => .void

/-- Name of a local variable: as declared, or its slot. -/
def localName (m : Machine) (i : Nat) : String :=
  match m.top?.bind fun top => top.handler.locals[i]?.map top.library.names.name with
  | some name => name
  | none => s!"local{i}"

def setParam (raw : Int32) (value : Value) : Update Unit := do
  match slot? (← get) raw with
  | none => report .debug .vm ("param slot " ++ toString raw.toInt ++ " dropped")
  | some i =>
    noteSet .param s!"param{i}" value
    modify (·.onTop (·.setParam i value))

def setLocal (raw : Int32) (value : Value) : Update Unit := do
  match slot? (← get) raw with
  | none => report .debug .vm ("local slot " ++ toString raw.toInt ++ " dropped")
  | some i =>
    noteSet .localVar (localName (← get) i) value
    modify (·.onTop (·.setLocal i value))

def getGlobal (id : Int32) : Update Unit := do
  let m ← get
  push (m.global (m.name id))

def setGlobal (id : Int32) : Update Unit := do
  let value ← pop
  Machine.setGlobal ((← get).name id) value

/-! ## Fields -/

/-- Text of a field; empty when there is none. -/
def fieldText (m : Machine) (cast field : Value) : String :=
  (m.casts.bind (·.fieldText? cast field)).getD ""

/-- The library and member that two operands address for writing. -/
def fieldMember? (casts : CastLibraries) (cast field : Value) : Option (Int32 × Int32) :=
  let castLib :=
    match cast with
    | .int n | .castLib n => n
    | .text name => casts.numberNamed name
    | _ => 0
  match field with
  | .member castLib member => some (castLib, member)
  | .text name =>
    match casts.memberNamed castLib name with
    | .member castLib member => some (castLib, member)
    | _ => none
  | v => some (if castLib.toInt < 1 then 1 else castLib, v.toInt32)

/-- Sets the text of a field. -/
def setFieldText (cast field value : Value) : Update Unit := do
  noteSet .field ((← get).memory.text field) value
  match (← get).casts with
  | none =>
    reportShown .warn .vm fun memory =>
      (memory.display? field).map ("field " ++ · ++ " set without a cast provider")
  | some casts =>
    let stored ←
      match fieldMember? casts cast field with
      | some (castLib, member) => setMemberProp castLib member "text" value
      | none => pure false
    if stored then pure ()
    else
      reportShown .warn .vm fun memory =>
        (memory.display? field).map ("no field " ++ · ++ " to put text into")

/-! ## Variables by kind -/

/-- The kind of variable with a code. -/
def variableKind? (code : Int32) : Option VariableKind :=
  if code == 1 || code == 2 then some .global
  else if code == 3 then some .property
  else if code == 4 then some .param
  else if code == 5 then some .localVar
  else if code == 6 then some .field
  else none

/-- A variable that operands address: its name number, scaled slot or field, and
for a field also its library. -/
structure VariableRef where
  kind : VariableKind
  id : Value
  cast : Value := .void

/-- Takes the operands that address a variable, also when no kind of variable
has the code. -/
def popVariable (code : Int32) : Update (Option VariableRef) := do
  match variableKind? code with
  | some .field =>
    let cast ← pop
    let id ← pop
    return some ⟨.field, id, cast⟩
  | some kind => return some ⟨kind, ← pop, .void⟩
  | none =>
    let _ ← pop
    return none

/-- The value of a variable. -/
def variableValue (m : Machine) (v : VariableRef) : Value :=
  match v.kind with
  | .global => m.global (m.name v.id.toInt32)
  | .property =>
    match m.receiver with
    | .object id => m.memory.heap.property id (m.name v.id.toInt32)
    | _ => .void
  | .param => paramAt m v.id.toInt32
  | .localVar => localAt m v.id.toInt32
  | .field => .text (fieldText m v.cast v.id)

/-- Assigns to a variable. -/
def setVariable (v : VariableRef) (value : Value) : Update Unit := do
  let m ← get
  match v.kind with
  | .global => Machine.setGlobal (m.name v.id.toInt32) value
  | .property =>
    match m.receiver with
    | .object id =>
      let name := m.name v.id.toInt32
      noteSet .property name value
      Machine.setProp id name value
    | _ => pure ()
  | .param => setParam v.id.toInt32 value
  | .localVar => setLocal v.id.toInt32 value
  | .field => setFieldText v.cast v.id value

/-- How and into what a `put` argument says to put. -/
def putMode (argument : Int32) : PutMode :=
  (PutMode.ofCode? ((argument >>> 4) &&& 0xF)).getD .into

/-- `put value into|after|before variable`. -/
def put (argument : Int32) : Update Unit := do
  let kind := argument &&& 0xF
  let target? ← popVariable kind
  let value ← pop
  match target? with
  | none => report .warn .vm ("PUT: unsupported variable kind " ++ toString kind.toInt)
  | some target =>
    let m ← get
    let text := m.memory.text
    match putMode argument with
    | .into => setVariable target value
    | .after => setVariable target (.text (text (variableValue m target) ++ text value))
    | .before => setVariable target (.text (text value ++ text (variableValue m target)))

end Lingo.Step
