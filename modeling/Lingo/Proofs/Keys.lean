import Lingo.Proofs.Ancestry
import Lingo.Proofs.Cells
import Lingo.Proofs.Stacks

/-!
# Keys of property lists

A keyed write binds one key of a property list, told apart from the others exactly.
Most keyed reads look the key up in the same way. The instruction on chains of
accesses and the method `findPos` do not regard case: they take the first key that
is the same but for case, which may be another one that was there before
(`Bindings.rival?`).

* `Bindings.Sets.findFolded?`: what a look-up without regard to case finds after a
  write;
* `Binds.memory_eq`: every keyed write is one change of one cell;
* `keyed_read_write`: what each read yields after each write;
* `keyed_read_misses`: a read that does not see the write.
-/

namespace Lingo

open Machine
open Host (perform)

/-! ## Look-ups without regard to case -/

namespace Bindings

variable {α : Type} {b b' : Bindings α} {name : String} {value : α}

/-- The first entry before that of a name whose own name differs from it in nothing
but case. -/
def rival? (b : Bindings α) (name : String) : Option (String × α) :=
  (b.entries.takeWhile (·.1 != name)).find? fun e => Text.sameName e.1 name

theorem takeWhile_ne_append {before : List (String × α)} (h : name ∉ before.map (·.1))
    (after : List (String × α)) :
    (before ++ after).takeWhile (·.1 != name) = before ++ after.takeWhile (·.1 != name) := by
  refine List.takeWhile_append_of_pos fun e he => ?_
  rw [bne_iff_ne]
  rintro rfl
  exact h (List.mem_map_of_mem he)

/-- What stands before the entry of a name stays there when the name is bound. -/
theorem Sets.entries_eq (h : b.Sets b' name value) :
    ∃ after, b'.entries = b.entries.takeWhile (·.1 != name) ++ (name, value) :: after := by
  cases h with
  | replaced before old after first was is =>
    refine ⟨after, ?_⟩
    rw [is, was, takeWhile_ne_append first, List.takeWhile_cons_of_neg (by simp), List.append_nil]
  | added new is =>
    refine ⟨[], ?_⟩
    have all := takeWhile_ne_append new []
    rw [List.append_nil, List.takeWhile_nil, List.append_nil] at all
    rw [is, all]

/-- All other entries stay, in their order. -/
theorem Sets.others (h : b.Sets b' name value) :
    b'.entries.filter (·.1 != name) = b.entries.filter (·.1 != name) := by
  cases h with
  | replaced before old after first was is => rw [is, was]; simp
  | added new is => rw [is]; simp

theorem Sets.findFolded? (h : b.Sets b' name value) :
    b'.findFolded? name = some ((b.rival? name).getD (name, value)) := by
  obtain ⟨after, split⟩ := h.entries_eq
  have bound : ((name, value) :: after).find? (fun e => Text.sameName e.1 name) =
      some (name, value) := by
    simp only [List.find?_cons, Text.sameName_refl]
  rw [Bindings.findFolded?, split, List.find?_append, bound, ← rival?, Option.or_some]

/-- The position that is found is that of the entry that is found. -/
theorem findIdxFolded?_of_findFolded? {e : String × α} (h : b.findFolded? name = some e) :
    ∃ i, b.findIdxFolded? name = some i ∧ i < b.size ∧ b.values[i]? = some e.2 := by
  obtain ⟨same, i, hi, rfl, before⟩ := List.find?_eq_some_iff_getElem.mp h
  refine ⟨i, ?_, hi, ?_⟩
  · exact List.findIdx?_eq_some_iff_getElem.mpr
      ⟨hi, same, fun j hj => by simpa using before j hj⟩
  · rw [values, List.getElem?_map, List.getElem?_eq_getElem hi, Option.map_some]

end Bindings

/-! ## Writes and reads -/

/-- The name is one of these, in any case. -/
def OneOf (names : List String) (name : String) : Prop :=
  ∃ n ∈ names, Text.sameName name n = true

theorem MethodTable.find?_oneOf {β : Type} {table : MethodTable β} {names : List String} {f : β}
    {name : String} (is : OneOf names name) (listed : ∀ n ∈ names, table.find? n = some f) :
    table.find? name = some f := by
  obtain ⟨n, hn, same⟩ := is
  rw [find?, Text.sameName_iff.mp same]
  exact listed n hn

/-- The second machine is the first one after a keyed write to the property list in
a cell: by one of the methods that bind a key, or by the instruction that assigns to
a property. -/
inductive Binds (c : Calls) (cell : Nat) (name : String) (value : Value) (m : Machine) :
    Machine → Prop
  | method {method : String} {key : Value} (is : OneOf ["setaProp", "setProp", "addProp"] method)
    (named : m.memory.text key = name) :
    Binds c cell name value m (perform (callMethod c (.propList cell) method #[key, value]) m).2
  | setAt {method : String} {key : Value} (is : OneOf ["setAt"] method)
    (textual : key.isTextual = true) (named : m.memory.text key = name) :
    Binds c cell name value m (perform (callMethod c (.propList cell) method #[key, value]) m).2
  | instruction {i : Instruction} {stack : List Value} (is : i.opcode = .setObjProp)
    (running : m.frames ≠ []) (named : m.name i.argument = name) :
    Binds c cell name value m
      (perform (Step.execute c i) (m.withStack (value :: .propList cell :: stack))).2

/-- In a machine with this memory, the methods that look a key up exactly yield the
value, and nothing changes. -/
def YieldsExactly (c : Calls) (memory : Memory) (cell : Nat) (name : String) (value : Value) :
    Prop :=
  ∀ m : Machine, m.memory = memory → ∀ key, memory.text key = name → ∀ method,
    OneOf ["getaProp", "getProp"] method ∨ OneOf ["getAt"] method ∧ key.isTextual = true →
    perform (callMethod c (.propList cell) method #[key]) m = (.ok value, m)

/-- In a machine with this memory, the instruction on chains of accesses pushes the
value, and the value is at the position that `findPos` finds, as long as positions are
numbers of 32 bits. -/
def YieldsInAnyCase (c : Calls) (memory : Memory) (cell : Nat) (name : String) (value : Value) :
    Prop :=
  ∀ m : Machine, m.memory = memory →
    (∀ (i : Instruction) (stack : List Value), i.opcode = .getChainedProp → m.frames ≠ [] →
      m.name i.argument = name →
      perform (Step.execute c i) (m.withStack (.propList cell :: stack)) =
        (.ok (), m.withStack (value :: stack))) ∧
    ((memory.props cell).size < 2147483648 → ∀ key, memory.text key = name → ∀ findPos getAt,
      OneOf ["findPos"] findPos → OneOf ["getAt"] getAt → ∃ position,
        perform (callMethod c (.propList cell) findPos #[key]) m = (.ok position, m) ∧
        perform (callMethod c (.propList cell) getAt #[position]) m = (.ok value, m))

section

variable {c : Calls} {m m' : Machine} {memory : Memory} {cell : Nat} {name : String}
  {value : Value}

/-- A method of a property list is called on its cell, and changes nothing but the
memory. -/
theorem perform_propListMethod {method : String} {f : PropListMethod} {args : Array Value}
    (is : PropListMethod.table.find? method = some f) :
    perform (callMethod c (.propList cell) method args) m =
      (.ok (f.run cell args m.memory).1, { m with memory := (f.run cell args m.memory).2 }) := by
  show perform (sure (callPropList cell method args)) m = _
  rw [perform_sure, callPropList, is]
  rfl

theorem execute_setObjProp {i : Instruction} (is : i.opcode = .setObjProp) :
    perform (Step.execute c i) m = (.ok (), (Step.setObjProp i.argument m).2) := by
  rw [Step.execute, is]
  rfl

theorem execute_getChainedProp {i : Instruction} (is : i.opcode = .getChainedProp) :
    perform (Step.execute c i) m = (.ok (), (Step.getChainedProp i.argument m).2) := by
  rw [Step.execute, is]
  rfl

theorem setObjProp_withStack (running : m.frames ≠ []) (id : Int32) (stack : List Value) :
    Step.setObjProp id (m.withStack (value :: .propList cell :: stack)) =
      ((), { m.withStack stack with
        memory := m.memory.modifyProps cell (·.insert (m.name id) value) }) := by
  rw [Step.setObjProp, pop_bind_withStack running, pop_bind_withStack running, get_bind_apply,
    name_withStack]
  rfl

theorem getChainedProp_withStack (running : m.frames ≠ []) (id : Int32) (stack : List Value) :
    Step.getChainedProp id (m.withStack (.propList cell :: stack)) =
      ((), m.withStack
        (((m.memory.props cell).getFolded? (m.name id)).getD .void :: stack)) := by
  rw [Step.getChainedProp, pop_bind_withStack running, get_bind_apply]
  dsimp only
  rw [push_withStack running, name_withStack]
  rfl

/-- Every keyed write is one change of one cell. -/
theorem Binds.propLists_eq (h : Binds c cell name value m m') :
    m'.memory.propLists = m.memory.propLists.modify cell (·.insert name value) := by
  cases h with
  | method is named =>
    rw [perform_propListMethod (MethodTable.find?_oneOf is (f := .setProp) (by decide)), ← named]
    rfl
  | @setAt method key is textual named =>
    rw [perform_propListMethod (MethodTable.find?_oneOf is (f := .setAt) (by decide)), ← named]
    cases key <;> first | rfl | cases textual
  | @instruction i stack is running named =>
    rw [execute_setObjProp is, setObjProp_withStack running, named]
    rfl

/-- A position that is not too great stands for the index before it. -/
theorem position?_ofNat {i : Nat} (few : i < 2147483647) :
    (Value.ofNat (i + 1)).position? = some i := by
  have exact : (Int32.ofNat (i + 1)).toInt = i + 1 := Int32.toInt_ofNat_of_lt (by omega)
  show (if 1 ≤ (Int32.ofNat (i + 1)).toInt then
    some ((Int32.ofNat (i + 1)).toInt.toNat - 1) else none) = some i
  rw [exact, if_pos (by omega)]
  simp

/-- Where a key is bound, the methods that look it up exactly yield its value. -/
theorem yieldsExactly_of_get? (h : (memory.props cell).get? name = some value) :
    YieldsExactly c memory cell name value := by
  rintro m rfl key rfl method (is | ⟨is, textual⟩)
  · rw [perform_propListMethod (MethodTable.find?_oneOf is (f := .getProp) (by decide))]
    show (Except.ok (PropListMethod.valueOf m.memory cell key), m) = _
    rw [PropListMethod.valueOf, h, Option.getD_some]
  · rw [perform_propListMethod (MethodTable.find?_oneOf is (f := .getAt) (by decide))]
    have read : PropListMethod.run cell #[key] .getAt m.memory =
        (PropListMethod.valueOf m.memory cell key, m.memory) := by
      show ((if key.isTextual then _ else _ : Alloc Value) m.memory) = _
      rw [if_pos textual]
      rfl
    rw [read, PropListMethod.valueOf, h, Option.getD_some]

/-- The readers that do not regard case yield the value of the first key that is the
same but for case. -/
theorem yieldsInAnyCase_of_findFolded? {key : String}
    (h : (memory.props cell).findFolded? name = some (key, value)) :
    YieldsInAnyCase c memory cell name value := by
  rintro m rfl
  refine ⟨fun i stack is running named => ?chained, ?position⟩
  case chained =>
    rw [execute_getChainedProp is, getChainedProp_withStack running, named, Bindings.getFolded?, h]
    rfl
  case position =>
    rintro few key rfl findPos getAt isFindPos isGetAt
    obtain ⟨i, found, hi, at_i⟩ := Bindings.findIdxFolded?_of_findFolded? h
    refine ⟨.ofNat (i + 1), ?_, ?_⟩
    · rw [perform_propListMethod (MethodTable.find?_oneOf isFindPos (f := .findPos) (by decide))]
      show (Except.ok ((((m.memory.props cell).findIdxFolded? (m.memory.text key)).map
        fun i => Value.ofNat (i + 1)).getD .void), m) = _
      rw [found]
      rfl
    · rw [perform_propListMethod (MethodTable.find?_oneOf isGetAt (f := .getAt) (by decide))]
      have index : (Value.ofNat (i + 1)).position? = some i := position?_ofNat (by omega)
      have read : PropListMethod.run cell #[.ofNat (i + 1)] .getAt m.memory =
          (((m.memory.props cell).values[i]?).getD .void, m.memory) := by
        unfold PropListMethod.run
        dsimp only
        rw [show #[Value.ofNat (i + 1)][0]? = some (Value.ofNat (i + 1)) from rfl]
        dsimp only
        rw [if_neg (show ¬ (Value.ofNat (i + 1)).isTextual = true from Bool.false_ne_true), index]
        rfl
      rw [read, at_i, Option.getD_some]

end

/-- After a keyed write, the reads that look the key up exactly yield the value. Those
that do not regard case yield it unless an earlier key is the same but for case; then
they yield that key's value, as they did before. All other entries stay, in their
order. -/
theorem keyed_read_write {c : Calls} {m m' : Machine} {cell : Nat} {name : String} {value : Value}
    (placed : cell < m.memory.propLists.size) (write : Binds c cell name value m m') :
    let before := m.memory.props cell
    let after := m'.memory.props cell
    YieldsExactly c m'.memory cell name value ∧
    YieldsInAnyCase c m'.memory cell name ((before.rival? name).elim value (·.2)) ∧
    after.entries.filter (·.1 != name) = before.entries.filter (·.1 != name) := by
  intro before after
  have bound : after = before.insert name value := by
    have written := Memory.props_modifyProps (·.insert name value) placed
    simp only [after, Memory.props, write.propLists_eq]
    exact written
  have sets : before.Sets after name value := bound ▸ before.sets_insert name value
  refine ⟨?exactly, ?anyCase, sets.others⟩
  case exactly =>
    exact yieldsExactly_of_get? (by rw [← before.get?_insert_self name value, ← bound])
  case anyCase =>
    have found := sets.findFolded?
    cases rival : before.rival? name with
    | none =>
      rw [rival] at found
      exact yieldsInAnyCase_of_findFolded? found
    | some e =>
      rw [rival] at found
      exact yieldsInAnyCase_of_findFolded? found

/-- A handler of a library that has a name for the key `speed`. -/
def speedSite : HandlerSite where
  library := { names := ⟨#["speed"]⟩ }
  script := { member := 1, kind := .movie, handlers := #[{ nameId := 0 }] }
  index := 0
  inRange := by decide

/-- A machine that runs it, with a property list that has the key in another case. -/
def speedMachine : Machine where
  memory := { propLists := #[⟨[("Speed", .int 1), ("size", .int 5)]⟩] }
  frames := [Frame.enter speedSite #[] .void]

/-- Both keys are there after the assignment; read without regard to case, the first
one is found. -/
theorem keyed_read_write_speed :
    let c := speedMachine.calls
    let assign : Instruction := ⟨0, .setObjProp, 0x62, 0⟩
    let m' := (perform (Step.execute c assign)
      (speedMachine.withStack [.int 2, .propList 0])).2
    (m'.memory.props 0).entries = [("Speed", .int 1), ("size", .int 5), ("speed", .int 2)] ∧
    0 < speedMachine.memory.propLists.size ∧ Binds c 0 "speed" (.int 2) speedMachine m' ∧
    YieldsExactly c m'.memory 0 "speed" (.int 2) ∧
    YieldsInAnyCase c m'.memory 0 "speed" (.int 1) := by
  intro c assign m'
  have placed : 0 < speedMachine.memory.propLists.size := by decide
  have write : Binds c 0 "speed" (.int 2) speedMachine m' :=
    .instruction rfl (List.cons_ne_nil _ _) (by decide)
  obtain ⟨exactly, anyCase, -⟩ := keyed_read_write placed write
  exact ⟨by decide +kernel, placed, write, exactly, anyCase⟩

/-- The value that was written is not at the position that `findPos` finds for its key,
and not what the instruction on chains of accesses pushes. -/
theorem keyed_read_misses :
    let c := speedMachine.calls
    let m' := (perform (callMethod c (.propList 0) "setaProp" #[.symbol "speed", .int 2])
      speedMachine).2
    let chained : Instruction := ⟨0, .getChainedProp, 0x70, 0⟩
    (perform (callMethod c (.propList 0) "getaProp" #[.symbol "speed"]) m').1 = .ok (.int 2) ∧
    (perform (callMethod c (.propList 0) "findPos" #[.symbol "speed"]) m').1 = .ok (.int 1) ∧
    (perform (callMethod c (.propList 0) "getAt" #[.int 1]) m').1 = .ok (.int 1) ∧
    m'.name chained.argument = "speed" ∧
    (perform (Step.execute c chained) (m'.withStack [.propList 0])).2.top?.map Frame.stack =
      some [.int 1] := by
  refine ⟨by decide +kernel, by decide +kernel, by decide +kernel, by decide +kernel,
    by decide +kernel⟩

end Lingo
