import Lingo.Proofs.Ancestry
import Lingo.Proofs.Slots
import Lingo.Proofs.Stacks

/-!
# Places of variables

A variable that an instruction names by its kind and a number has its value in one of
the places of the machine: an entry of the globals, of an object's own properties, or
one of the running handler's parameters and locals. Which one it is (`Machine.place?`)
depends on the running handler and on the ancestors of its receiver.

* `variableValue_eq`: a variable is read from its place;
* `setVariable_assigns`: an assignment changes this place and no other, and is read back;
* `execute_get`: the instructions that push a variable read it in the same way.
-/

namespace Lingo

open Machine
open Host (perform)

/-- Where a variable has its value. -/
inductive Place where
  | global (name : String)
  | property (id : ObjectId) (name : String)
  | param (slot : Nat)
  | localVar (slot : Nat)
  deriving DecidableEq

/-- The kind of variable that an operation pushes. -/
def Opcode.reads? : Opcode → Option VariableKind
  | .getGlobal | .getGlobal2 => some .global
  | .getProp => some .property
  | .getParam => some .param
  | .getLocal => some .localVar
  | _ => none

theorem Frame.setLocal_eq (f : Frame) (slot : Nat) (value : Value) :
    f.setLocal slot value = { f with locals := (f.setLocal slot value).locals } := by
  unfold setLocal
  split <;> rfl

namespace Machine

/-- What is in a place; none where no such variable was ever assigned to. -/
def contents? (m : Machine) : Place → Option Value
  | .global name => m.globals.get? name
  | .property id name => m.memory.heap.own? id name
  | .param slot => m.top?.map (·.paramAt slot)
  | .localVar slot => m.top?.map (·.localAt slot)

/-- The place of a variable: of a property, that in the nearest object that has it, from
the receiver on, or in the receiver. Fields are not variables, and slots below the first
one and locals from `maxLocals` on are nowhere. -/
def place? (m : Machine) (kind : VariableKind) (id : Int32) : Option Place :=
  match kind with
  | .global => some (.global (m.name id))
  | .property =>
    match m.receiver with
    | .object object =>
      if (m.memory.heap.get? object).isSome then
        some (.property ((m.memory.heap.owner? object (m.name id)).getD object) (m.name id))
      else none
    | _ => none
  | .param => (Step.slot? m id).map .param
  | .localVar => ((Step.slot? m id).filter (· < maxLocals)).map .localVar
  | .field => none

/-- In the second machine, a place has a value, and no other place and nothing else has
changed, but for what is told of it. -/
structure Stored (m m' : Machine) (place : Place) (value : Value) : Prop where
  there : m'.contents? place = some value
  others : ∀ other, other ≠ place → m'.contents? other = m.contents? other
  objects : ∀ id, (m'.memory.heap.get? id).map Object.script =
    (m.memory.heap.get? id).map Object.script
  frames : ∃ params locals, m'.frames = m.frames.modifyHead ({ · with params, locals })
  only : m' = { m with
    globals := m'.globals, memory := { m.memory with heap := m'.memory.heap }, frames := m'.frames,
    log := m'.log, events := m'.events }

variable {m m' : Machine} {kind : VariableKind} {id value : Value} {place : Place}

/-! ## Reading -/

/-- A property is looked up where it is, or would be, assigned to. -/
theorem property?_eq_own? (heap : Heap) (start : ObjectId) (name : String) :
    heap.property? start name = heap.own? ((heap.owner? start name).getD start) name := by
  rw [Heap.property?]
  cases h : heap.owner? start name with
  | some owner => rfl
  | none =>
    have undeclared := Heap.owner?_eq_none_iff.mp h 0 (by decide) start rfl
    exact (Option.not_isSome_iff_eq_none.mp undeclared).symm

theorem live_owner {heap : Heap} {start : ObjectId} (live : (heap.get? start).isSome)
    (name : String) : (heap.get? ((heap.owner? start name).getD start)).isSome := by
  cases h : heap.owner? start name with
  | none => exact live
  | some owner =>
    obtain ⟨-, -, -, declares, -⟩ := Heap.owner?_eq_some_iff.mp h
    exact declares.live

theorem place?_property {number : Int32} (addressed : m.place? .property number = some place) :
    ∃ object, m.receiver = .object object ∧ (m.memory.heap.get? object).isSome ∧
      place =
        .property ((m.memory.heap.owner? object (m.name number)).getD object) (m.name number) := by
  unfold place? at addressed
  dsimp only at addressed
  cases receiver : m.receiver with
  | object object =>
    rw [receiver] at addressed
    dsimp only at addressed
    split at addressed
    · rename_i live
      exact ⟨object, rfl, live, (Option.some.inj addressed).symm⟩
    · cases addressed
  | _ =>
    rw [receiver] at addressed
    cases addressed

/-- A variable is read from its place. -/
theorem variableValue_eq (addressed : m.place? kind id.toInt32 = some place) :
    Step.variableValue m ⟨kind, id, .void⟩ = (m.contents? place).getD .void := by
  cases kind with
  | global =>
    obtain rfl := Option.some.inj addressed
    rfl
  | property =>
    obtain ⟨object, receiver, -, rfl⟩ := place?_property addressed
    rw [Step.variableValue, receiver]
    dsimp only
    rw [Heap.property, property?_eq_own?]
    rfl
  | param =>
    obtain ⟨slot, hs, rfl⟩ := Option.map_eq_some_iff.mp addressed
    show Step.paramAt m id.toInt32 = (m.top?.map (·.paramAt slot)).getD .void
    rw [Step.paramAt, hs]
    cases m.top? <;> rfl
  | localVar =>
    obtain ⟨slot, hs, rfl⟩ := Option.map_eq_some_iff.mp addressed
    show Step.localAt m id.toInt32 = (m.top?.map (·.localAt slot)).getD .void
    rw [Step.localAt, (Option.filter_eq_some_iff.mp hs).1]
    cases m.top? <;> rfl
  | field => cases addressed

/-! ## Assigning -/

section

theorem modifyHead_same (frames : List Frame) :
    ∃ params locals, frames = frames.modifyHead ({ · with params, locals }) := by
  cases frames with
  | nil => exact ⟨[], #[], rfl⟩
  | cons top rest => exact ⟨top.params, top.locals, rfl⟩

variable (log : List LogEntry) (events : List TraceEvent)

theorem stored_global (m : Machine) (name : String) (value : Value) :
    m.Stored { m with globals := m.globals.insert name value, log, events } (.global name)
      value where
  there := m.globals.get?_insert_self name value
  others other ne := by
    cases other with
    | global other =>
      exact (m.globals.get?_insert name other value).trans
        (if_neg fun same => ne (congrArg Place.global same))
    | _ => rfl
  objects _ := rfl
  frames := modifyHead_same m.frames
  only := rfl

theorem stored_property (m : Machine) {object : ObjectId}
    (live : (m.memory.heap.get? object).isSome) (name : String) (value : Value) :
    m.Stored { m with
      memory := { m.memory with heap := m.memory.heap.setOwn object name value }, log, events }
      (.property object name) value where
  there := Heap.own?_setOwn_self live name value
  others other ne := by
    cases other with
    | property other key =>
      refine Heap.own?_setOwn_ne m.memory.heap value ?_
      by_contra both
      rw [not_or, not_not, not_not] at both
      exact ne (both.1 ▸ both.2 ▸ rfl)
    | _ => rfl
  objects id := by
    by_cases h : id = object
    · show ((m.memory.heap.setOwn object name value).get? id).map Object.script = _
      rw [h, Heap.get?_setOwn, Option.map_map]
      rfl
    · exact congrArg _ (Heap.get?_setOwn_ne m.memory.heap name value h)
  frames := modifyHead_same m.frames
  only := rfl

variable {top : Frame} {rest : List Frame} (frames : m.frames = top :: rest)
include frames

theorem stored_param (slot : Nat) (value : Value) :
    m.Stored { m with frames := top.setParam slot value :: rest, log, events } (.param slot)
      value where
  there := congrArg some ((top.paramAt_setParam slot slot value).trans (if_pos rfl))
  others other ne := by
    unfold contents? top?
    rw [frames]
    cases other with
    | param other =>
      refine congrArg some ((top.paramAt_setParam slot other value).trans (if_neg ?_))
      exact fun same => ne (congrArg Place.param same)
    | _ => rfl
  objects _ := rfl
  frames := ⟨_, _, by rw [frames]; rfl⟩
  only := rfl

theorem stored_local {slot : Nat} (inside : slot < maxLocals) (value : Value) :
    m.Stored { m with frames := top.setLocal slot value :: rest, log, events } (.localVar slot)
      value where
  there := congrArg some ((top.localAt_setLocal inside slot value).trans (if_pos rfl))
  others other ne := by
    unfold contents? top?
    rw [frames]
    cases other with
    | localVar other =>
      refine congrArg some ((top.localAt_setLocal inside other value).trans (if_neg ?_))
      exact fun same => ne (congrArg Place.localVar same)
    | param other =>
      refine congrArg some ?_
      rw [top.setLocal_eq]
      rfl
    | _ => rfl
  objects _ := rfl
  frames := by
    refine ⟨top.params, (top.setLocal slot value).locals, ?_⟩
    dsimp only
    rw [frames, top.setLocal_eq]
    rfl
  only := rfl

end

theorem slot?_of_site {top top' : Frame} {rest : List Frame} (frames : m.frames = top :: rest)
    (site : top'.site = top.site) {log : List LogEntry} {events : List TraceEvent} (raw : Int32) :
    Step.slot? { m with frames := top' :: rest, log, events } raw = Step.slot? m raw := by
  rw [Step.slot?, Step.slot?, slotScale, slotScale, frames]
  dsimp only [Frame.library]
  rw [site]

/-- An assignment to a variable changes a place and nothing else, and is read back. -/
def Assigns (m : Machine) (v : Step.VariableRef) (value : Value) (place : Place) : Prop :=
  ∃ m', Step.setVariable v value m = ((), m') ∧ m.Stored m' place value ∧
    Step.variableValue m' v = value

theorem assigns_global (m : Machine) (id value : Value) :
    m.Assigns ⟨.global, id, .void⟩ value (.global (m.name id.toInt32)) := by
  obtain ⟨log, events, told⟩ := noteSet_apply .global (m.name id.toInt32) value m
  refine ⟨_, ?run, stored_global log events m (m.name id.toInt32) value, ?read⟩
  case run =>
    rw [Step.setVariable, get_bind_apply]
    dsimp only
    rw [Machine.setGlobal, update_bind_apply, told]
    rfl
  case read =>
    have found := m.globals.get?_insert_self (m.name id.toInt32) value
    exact congrArg (Option.getD · .void) found

theorem assigns_property {object : ObjectId} (receiver : m.receiver = .object object)
    (live : (m.memory.heap.get? object).isSome) (id value : Value) :
    m.Assigns ⟨.property, id, .void⟩ value (.property
      ((m.memory.heap.owner? object (m.name id.toInt32)).getD object) (m.name id.toInt32)) := by
  obtain ⟨log, events, told⟩ := noteSet_apply .property (m.name id.toInt32) value m
  refine ⟨_, ?run, stored_property log events m (live_owner live _) (m.name id.toInt32) value,
    ?read⟩
  case run =>
    rw [Step.setVariable, get_bind_apply]
    dsimp only
    rw [receiver]
    dsimp only
    rw [update_bind_apply, told]
    rfl
  case read =>
    have found := Heap.property?_setProperty live (m.name id.toInt32) value
    show (match m.receiver with
      | .object object =>
        (m.memory.heap.setOwn _ (m.name id.toInt32) value).property object (m.name id.toInt32)
      | _ => .void) = value
    rw [receiver]
    dsimp only
    rw [Heap.setProperty] at found
    rw [Heap.property, found, Option.getD_some]

section

variable {top : Frame} {rest : List Frame} {slot : Nat} (frames : m.frames = top :: rest)
  (is : Step.slot? m id.toInt32 = some slot)
include frames is

theorem assigns_param (value : Value) : m.Assigns ⟨.param, id, .void⟩ value (.param slot) := by
  obtain ⟨log, events, told⟩ := noteSet_apply .param s!"param{slot}" value m
  refine ⟨_, ?run, stored_param log events frames slot value, ?read⟩
  case run =>
    rw [Step.setVariable, get_bind_apply]
    dsimp only
    rw [Step.setParam, get_bind_apply, is]
    dsimp only
    rw [update_bind_apply, told]
    exact congrArg (Prod.mk ()) (onTop_apply _ frames)
  case read =>
    have site : (top.setParam slot value).site = top.site := rfl
    show Step.paramAt _ id.toInt32 = value
    rw [Step.paramAt, slot?_of_site frames site, is]
    exact (top.paramAt_setParam slot slot value).trans (if_pos rfl)

theorem assigns_local (inside : slot < maxLocals) (value : Value) :
    m.Assigns ⟨.localVar, id, .void⟩ value (.localVar slot) := by
  obtain ⟨log, events, told⟩ := noteSet_apply .localVar (Step.localName m slot) value m
  refine ⟨_, ?run, stored_local log events frames inside value, ?read⟩
  case run =>
    rw [Step.setVariable, get_bind_apply]
    dsimp only
    rw [Step.setLocal, get_bind_apply, is]
    dsimp only
    rw [get_bind_apply, update_bind_apply, told]
    exact congrArg (Prod.mk ()) (onTop_apply _ frames)
  case read =>
    have site : (top.setLocal slot value).site = top.site := by rw [top.setLocal_eq]
    show Step.localAt _ id.toInt32 = value
    rw [Step.localAt, slot?_of_site frames site, is]
    exact (top.localAt_setLocal inside slot value).trans (if_pos rfl)

end

/-- An assignment to a variable goes to its place. -/
theorem setVariable_assigns (running : m.frames ≠ [])
    (addressed : m.place? kind id.toInt32 = some place) (value : Value) :
    m.Assigns ⟨kind, id, .void⟩ value place := by
  obtain ⟨top, rest, frames⟩ := List.exists_cons_of_ne_nil running
  cases kind with
  | global =>
    obtain rfl := Option.some.inj addressed
    exact assigns_global m id value
  | property =>
    obtain ⟨object, receiver, live, rfl⟩ := place?_property addressed
    exact assigns_property receiver live id value
  | param =>
    obtain ⟨slot, is, rfl⟩ := Option.map_eq_some_iff.mp addressed
    exact assigns_param frames is value
  | localVar =>
    obtain ⟨slot, is, rfl⟩ := Option.map_eq_some_iff.mp addressed
    obtain ⟨is, inside⟩ := Option.filter_eq_some_iff.mp is
    exact assigns_local frames is (of_decide_eq_true inside) value
  | field => cases addressed

/-! ## Instructions that push a variable -/

theorem execute_get {c : Calls} {i : Instruction} (reads : i.opcode.reads? = some kind)
    (argument : i.argument = id.toInt32) :
    perform (Step.execute c i) m =
      (.ok (), (push (Step.variableValue m ⟨kind, id, .void⟩) m).2) := by
  rw [Step.execute]
  cases op : i.opcode with
  | getGlobal | getGlobal2 =>
    rw [op] at reads
    obtain rfl := Option.some.inj reads
    rw [argument]
    rfl
  | getProp =>
    rw [op] at reads
    obtain rfl := Option.some.inj reads
    rw [argument]
    show (Except.ok (), (Step.getProp id.toInt32 m).2) = _
    rw [Step.getProp, get_bind_apply, Step.variableValue]
    dsimp only
    cases m.receiver <;> rfl
  | getParam | getLocal =>
    rw [op] at reads
    obtain rfl := Option.some.inj reads
    rw [argument]
    rfl
  | _ =>
    rw [op] at reads
    cases reads

end Machine

end Lingo
