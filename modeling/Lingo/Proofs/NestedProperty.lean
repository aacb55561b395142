import Lingo.Proofs.Keys

/-!
# Properties that hold containers

With three arguments, the method `setProp` of an object writes into the container that
one of its properties holds, and `getProp` with two reads there. The property is looked
up along the chain. A property without a value gets a container first.

* `NestedWrite`: what a write does to the memory;
* `setNested_list`, `setNested_propList`, `setNested_void`: the write, for each kind of
  container;
* `nested_property_read_write`: the method `getProp` then yields the value;
* `nested_property_misses`: keys are texts, and one with the container in it is another
  key after the write.
-/

namespace Lingo

open Machine
open Host (perform)

/-- A container that takes an element or an entry under a sub-key: a list, if the
sub-key is a position, a property list, or void, in place of which one is made. -/
inductive Memory.Takes (m : Memory) (sub : Value) : Value → Prop
  | list {cell : Nat} (placed : cell < m.lists.size) (position : 1 ≤ sub.toInt32.toInt) :
    Takes m sub (.list cell)
  | propList {cell : Nat} (placed : cell < m.propLists.size) : Takes m sub (.propList cell)
  | void : Takes m sub .void

/-- The second memory is the first one after a write into the container that a property
of an object holds. -/
inductive NestedWrite (m m' : Memory) (id : ObjectId) (prop : String) (sub value : Value) : Prop
  | list {cell i : Nat} (held : m.heap.property id prop = .list cell)
    (index : sub.position? = some i)
    (size : (m'.list cell).size = max (m.list cell).size (i + 1))
    (element : (m'.list cell)[i]? = some value)
    (others : ∀ j ≠ i, (m'.list cell)[j]?.getD .void = (m.list cell)[j]?.getD .void)
    (only : m' = m.modifyList cell fun _ => m'.list cell)
  | propList {cell : Nat} (held : m.heap.property id prop = .propList cell)
    (sets : (m.props cell).Sets (m'.props cell) (m.text sub) value)
    (only : m' = m.modifyProps cell fun _ => m'.props cell)
  | fresh {owner : ObjectId} (held : m.heap.property id prop = .void)
    (whose : m.heap.Nearest id prop owner ∨ m.heap.Undeclared id prop ∧ owner = id)
    (sets : m.heap.SetsOwn m'.heap owner prop (.propList m.propLists.size))
    (only : m' = { m with
      heap := m'.heap, propLists := m.propLists.push ⟨[(m.text sub, value)]⟩ })

namespace Memory

variable {m : Memory} {id : ObjectId} {prop : String} {v : Value} {b : Bindings Value}

/-- The memory after a property got a new property list as its value. -/
def withPropList (m : Memory) (id : ObjectId) (prop : String) (b : Bindings Value) : Memory :=
  { m with
    heap := m.heap.setProperty id prop (.propList m.propLists.size)
    propLists := m.propLists.push b }

theorem withPropList_modifyProps (f : Bindings Value → Bindings Value) :
    (m.withPropList id prop b).modifyProps m.propLists.size f = m.withPropList id prop (f b) := by
  have pushed : (m.propLists.push b).modify m.propLists.size f = m.propLists.push (f b) := by
    refine Array.ext_getElem? fun i => ?_
    rw [Array.getElem?_modify, Array.getElem?_push, Array.getElem?_push]
    by_cases h : i = m.propLists.size
    · rw [if_pos h.symm, if_pos h, if_pos h, Option.map_some]
    · rw [if_neg (Ne.symm h), if_neg h, if_neg h]
  rw [withPropList, modifyProps, pushed]
  rfl

theorem Apart.textWhile?_withPropList {container : Value} (h : m.Apart v container)
    (written : Option Nat) :
    (m.withPropList id prop b).textWhile? written v = m.textWhile? written v :=
  h.textWhile?_pushProps written b _

theorem Apart.text_withPropList {container : Value} (h : m.Apart v container) :
    (m.withPropList id prop b).text v = m.text v :=
  congrArg (·.getD "") (h.textWhile?_withPropList none)

theorem props_withPropList : (m.withPropList id prop b).props m.propLists.size = b := by
  rw [props, withPropList, Array.getElem?_push_size, Option.getD_some]

end Memory

namespace PropListMethod

variable {m : Memory} {key value : Value} {cell : Nat}

/-- A value that is apart from a property list can be its key. -/
theorem clashes_of_apart (h : m.Apart key (.propList cell)) : clashes m cell key = false := by
  rw [clashes, Option.isNone_eq_false_iff]
  exact h.textWhile?_isSome

/-- No value that is there already leads to a property list that is made later. -/
theorem clashes_later {container : Value} (h : m.Apart key container) :
    clashes m m.propLists.size key = false := by
  refine clashes_of_apart ⟨h.acyclic, h.whole, ?_⟩
  rintro ⟨w, cell, hw, is, same⟩
  have placed := h.whole w hw
  obtain rfl : Sum.inr m.propLists.size = cell := Option.some.inj same
  cases w <;> cases is
  exact Nat.lt_irrefl _ placed.1

theorem bind_of_not_clashes (h : clashes m cell key = false) (value : Value) :
    bind cell key value m = ((), m.modifyProps cell (·.insert (m.text key) value)) := by
  show ((), (m.modifyProps cell (·.insert (m.text key) value)).breakOffIf (clashes m cell key)) = _
  rw [h, Memory.breakOffIf_false]

end PropListMethod

namespace ListMethod

variable {items : Array Value} {i : Nat} {v : Value}

theorem size_store : (store items i v).size = max items.size (i + 1) := by
  rw [store]
  split
  · rw [Array.size_setIfInBounds]
    omega
  · simp only [Array.size_push, Array.size_append, Array.size_replicate]
    omega

theorem getElem?_store_self : (store items i v)[i]? = some v := by
  rw [store]
  split
  · rename_i h
    rw [Array.getElem?_setIfInBounds_self_of_lt h]
  · have size : (items ++ Array.replicate (i - items.size) Value.void).size = i := by
      rw [Array.size_append, Array.size_replicate]
      omega
    rw [Array.getElem?_push, if_pos size.symm]

/-- The other elements stay, and a gap reads as void, as it did before. -/
theorem getD_store_ne {j : Nat} (h : j ≠ i) :
    (store items i v)[j]?.getD .void = items[j]?.getD .void := by
  rw [store]
  split
  · rw [Array.getElem?_setIfInBounds_ne (Ne.symm h)]
  · rename_i outside
    have size : (items ++ Array.replicate (i - items.size) Value.void).size = i := by
      rw [Array.size_append, Array.size_replicate]
      omega
    rw [Array.getElem?_push, if_neg (by rw [size]; exact h), Array.getElem?_append]
    split
    · rfl
    · rename_i later
      have gone : items[j]? = none := Array.getElem?_eq_none (Nat.le_of_not_lt later)
      rw [gone, Array.getElem?_replicate]
      split <;> rfl

end ListMethod

namespace ObjectMethod

variable {m : Machine} {id : ObjectId} {key sub value : Value} {cell i : Nat}

/-! ## The write -/

theorem nestedContainer_of_held {prop : String} {held : Value}
    (h : m.memory.heap.property id prop = held) (ne : held.isVoid = false) :
    nestedContainer id prop m = (held, m) := by
  rw [nestedContainer, get_bind_apply, h, if_neg (by simp [ne])]
  rfl

theorem nestedContainer_of_void {prop : String} (h : m.memory.heap.property id prop = .void) :
    nestedContainer id prop m =
      (.propList m.memory.propLists.size,
        { m with memory := m.memory.withPropList id prop {} }) := by
  rw [nestedContainer, get_bind_apply, h, if_pos (show Value.void.isVoid = true from rfl)]
  rfl

theorem setNested_list (held : m.memory.heap.property id (m.memory.text key) = .list cell)
    (index : sub.position? = some i) :
    setNested id key sub value m =
      ((), { m with memory :=
        m.memory.modifyList cell fun items => ListMethod.store items i value }) := by
  rw [setNested, get_bind_apply]
  rw [update_bind_apply, nestedContainer_of_held held rfl, index]
  rfl

theorem setNested_propList
    (held : m.memory.heap.property id (m.memory.text key) = .propList cell)
    (subApart : m.memory.Apart sub (.propList cell)) :
    setNested id key sub value m =
      ((), { m with
        memory := m.memory.modifyProps cell (·.insert (m.memory.text sub) value) }) := by
  have written := PropListMethod.bind_of_not_clashes (PropListMethod.clashes_of_apart subApart) value
  rw [setNested, get_bind_apply]
  rw [update_bind_apply, nestedContainer_of_held held rfl]
  exact congrArg (fun e => ((), { m with memory := e.2 })) written

theorem setNested_void (held : m.memory.heap.property id (m.memory.text key) = .void)
    (subApart : m.memory.Apart sub .void) :
    setNested id key sub value m =
      ((), { m with memory :=
        m.memory.withPropList id (m.memory.text key) ⟨[(m.memory.text sub, value)]⟩ }) := by
  -- The key of the entry is taken when the empty container is there already.
  let fresh := m.memory.withPropList id (m.memory.text key) {}
  have written : PropListMethod.bind m.memory.propLists.size sub value fresh =
      ((), m.memory.withPropList id (m.memory.text key) ⟨[(m.memory.text sub, value)]⟩) := by
    have free : PropListMethod.clashes fresh m.memory.propLists.size sub = false := by
      rw [PropListMethod.clashes, subApart.textWhile?_withPropList]
      exact PropListMethod.clashes_later subApart
    rw [PropListMethod.bind_of_not_clashes free, subApart.text_withPropList,
      Memory.withPropList_modifyProps]
    rfl
  rw [setNested, get_bind_apply, update_bind_apply, nestedContainer_of_void held]
  exact congrArg (fun e => ((), { m with memory := e.2 })) written

end ObjectMethod

/-! ## Reads after writes -/

theorem Heap.propertyFolded_of_property? {heap : Heap} {start : ObjectId} {name : String}
    {value : Value} (h : heap.property? start name = some value) :
    heap.propertyFolded start name = value := by
  rw [propertyFolded, h]

/-- A property with a value that is not void is found. -/
theorem Heap.property?_of_property {heap : Heap} {start : ObjectId} {name : String} {value : Value}
    (h : heap.property start name = value) (ne : value.isVoid = false) :
    heap.property? start name = some value := by
  rw [property] at h
  cases found : heap.property? start name with
  | none =>
    rw [found, Option.getD_none] at h
    rw [← h] at ne
    cases ne
  | some v => rw [← h, found, Option.getD_some]

theorem perform_setProp {c : Calls} {m : Machine} {id : ObjectId} {method : String}
    {key sub value : Value} (is : OneOf ["setProp"] method) :
    perform (callMethod c (.object id) method #[key, sub, value]) m =
      (.ok .void, (ObjectMethod.setNested id key sub value m).2) := by
  show perform (sure (callObject c id method #[key, sub, value])) m = _
  rw [perform_sure, callObject, MethodTable.find?_oneOf is (f := .setProp) (by decide)]
  rfl

theorem getProp_yields {c : Calls} {m : Machine} {id : ObjectId} {method : String}
    {key sub container value : Value} (is : OneOf ["getProp"] method)
    (found : m.memory.heap.property? id (m.memory.text key) = some container)
    (element : ObjectMethod.element m.memory container sub = value) :
    perform (callMethod c (.object id) method #[key, sub]) m = (.ok value, m) := by
  show perform (sure (callObject c id method #[key, sub])) m = _
  rw [perform_sure, callObject, MethodTable.find?_oneOf is (f := .getProp) (by decide), ← element,
    ← Heap.propertyFolded_of_property? found]
  rfl

section

variable {m : Memory} {id : ObjectId} {prop : String} {sub value : Value} {cell i : Nat}

theorem nestedWrite_list (held : m.heap.property id prop = .list cell)
    (placed : cell < m.lists.size) (index : sub.position? = some i) :
    NestedWrite m (m.modifyList cell fun items => ListMethod.store items i value) id prop sub
      value := by
  have written := Memory.list_modifyList (fun items => ListMethod.store items i value) placed
  refine .list held index ?size ?element ?others (Memory.modifyList_eq _ placed)
  case size => rw [written, ListMethod.size_store]
  case element => rw [written, ListMethod.getElem?_store_self]
  case others =>
    intro j ne
    rw [written, ListMethod.getD_store_ne ne]

theorem nestedWrite_propList (held : m.heap.property id prop = .propList cell)
    (placed : cell < m.propLists.size) :
    NestedWrite m (m.modifyProps cell (·.insert (m.text sub) value)) id prop sub value := by
  refine .propList held ?sets (Memory.modifyProps_eq _ placed)
  rw [Memory.props_modifyProps _ placed]
  exact (m.props cell).sets_insert (m.text sub) value

theorem nestedWrite_void (held : m.heap.property id prop = .void) (live : (m.heap.get? id).isSome) :
    NestedWrite m (m.withPropList id prop ⟨[(m.text sub, value)]⟩) id prop sub value := by
  obtain ⟨owner, whose, sets⟩ := Heap.setProperty_sets live prop (.propList m.propLists.size)
  exact .fresh held whose sets rfl

theorem element_list {items : Array Value} (h : m.list cell = items)
    (index : sub.position? = some i) (at_i : items[i]? = some value) :
    ObjectMethod.element m (.list cell) sub = value := by
  show (sub.position?.bind fun i => (m.list cell)[i]?).getD .void = value
  rw [index, Option.bind_some, h, at_i, Option.getD_some]

theorem element_propList {b : Bindings Value} (h : m.props cell = b)
    (bound : b.get? (m.text sub) = some value) :
    ObjectMethod.element m (.propList cell) sub = value := by
  rw [ObjectMethod.element, h, bound]
  rfl

end

/-- After a write into the container in a property, the read with the same key and
sub-key yields the value. -/
theorem nested_property_read_write {c : Calls} {m : Machine} {id : ObjectId}
    {key sub value : Value} {setProp getProp : String} (isSet : OneOf ["setProp"] setProp)
    (isGet : OneOf ["getProp"] getProp) (live : (m.memory.heap.get? id).isSome)
    (keyApart : m.memory.Apart key (m.memory.heap.property id (m.memory.text key)))
    (subApart : m.memory.Apart sub (m.memory.heap.property id (m.memory.text key)))
    (takes : m.memory.Takes sub (m.memory.heap.property id (m.memory.text key))) :
    ∃ memory', NestedWrite m.memory memory' id (m.memory.text key) sub value ∧
      perform (callMethod c (.object id) setProp #[key, sub, value]) m =
        (.ok .void, { m with memory := memory' }) ∧
      perform (callMethod c (.object id) getProp #[key, sub]) { m with memory := memory' } =
        (.ok value, { m with memory := memory' }) := by
  rw [perform_setProp isSet]
  generalize held : m.memory.heap.property id (m.memory.text key) = container
    at keyApart subApart takes
  cases takes with
  | list placed position =>
    have index : sub.position? = some (sub.toInt32.toInt.toNat - 1) := if_pos position
    rw [ObjectMethod.setNested_list held index]
    refine ⟨_, nestedWrite_list held placed index, rfl, ?_⟩
    have found := Heap.property?_of_property held rfl
    exact getProp_yields isGet (by rw [keyApart.text_modifyList]; exact found)
      (element_list (Memory.list_modifyList _ placed) index ListMethod.getElem?_store_self)
  | propList placed =>
    rw [ObjectMethod.setNested_propList held subApart]
    refine ⟨_, nestedWrite_propList held placed, rfl, ?_⟩
    have found := Heap.property?_of_property held rfl
    refine getProp_yields isGet (by rw [keyApart.text_modifyProps]; exact found)
      (element_propList (Memory.props_modifyProps _ placed) ?_)
    rw [subApart.text_modifyProps]
    exact Bindings.get?_insert_self _ _ _
  | void =>
    rw [ObjectMethod.setNested_void held subApart]
    refine ⟨_, nestedWrite_void held live, rfl, ?_⟩
    have found := Heap.property?_setProperty live (m.memory.text key)
      (.propList m.memory.propLists.size)
    refine getProp_yields isGet (by rw [keyApart.text_withPropList]; exact found)
      (element_propList Memory.props_withPropList ?_)
    rw [subApart.text_withPropList]
    exact List.lookup_cons_self

/-- Two objects that are each other's ancestors; the second has a list of items. -/
def itemsMachine : Machine where
  memory := {
    lists := #[#[.int 1]]
    heap := { objects := #[
      { properties := ⟨[("ancestor", .object ⟨0, 1⟩)]⟩ },
      { properties := ⟨[("pItems", .list 0), ("ancestor", .object ⟨0, 0⟩)]⟩ }] } }

/-- The list that the ancestor holds is filled up. -/
theorem nested_property_read_write_items :
    let c := itemsMachine.calls
    let key := Value.symbol "pItems"
    let m' := (perform (callMethod c (.object ⟨0, 0⟩) "setProp" #[key, .int 3, .int 9])
      itemsMachine).2
    (itemsMachine.memory.heap.get? ⟨0, 0⟩).isSome ∧
    itemsMachine.memory.heap.property ⟨0, 0⟩ (itemsMachine.memory.text key) = .list 0 ∧
    itemsMachine.memory.Apart key (.list 0) ∧ itemsMachine.memory.Apart (.int 3) (.list 0) ∧
    itemsMachine.memory.Takes (.int 3) (.list 0) ∧
    m'.memory.list 0 = #[.int 1, .void, .int 9] ∧
    (perform (callMethod c (.object ⟨0, 0⟩) "getProp" #[key, .int 3]) m').1 = .ok (.int 9) := by
  intro c key m'
  have live : (itemsMachine.memory.heap.get? ⟨0, 0⟩).isSome := by decide +kernel
  have held :
      itemsMachine.memory.heap.property ⟨0, 0⟩ (itemsMachine.memory.text key) = .list 0 := by
    decide +kernel
  have keyApart : itemsMachine.memory.Apart key (.list 0) := .of_cell? rfl (by trivial) _
  have subApart : itemsMachine.memory.Apart (.int 3) (.list 0) := .of_cell? rfl (by trivial) _
  have takes : itemsMachine.memory.Takes (.int 3) (.list 0) := .list (by decide) (by decide)
  obtain ⟨memory', -, set, get⟩ :=
    @nested_property_read_write c itemsMachine ⟨0, 0⟩ key (.int 3) (.int 9) "setProp" "getProp"
      ⟨"setProp", by decide, by decide⟩ ⟨"getProp", by decide, by decide⟩ live (held ▸ keyApart)
      (held ▸ subApart) (held ▸ takes)
  refine ⟨live, held, keyApart, subApart, takes, by decide +kernel, ?_⟩
  rw [show m' = { itemsMachine with memory := memory' } from congrArg Prod.snd set, get]

/-- An object with a property whose name is the text of the list that it holds. -/
def selfNamedMachine : Machine where
  memory := {
    lists := #[#[.int 1, .int 2]]
    heap := { objects := #[{ properties := ⟨[("[1, 2]", .list 0)]⟩ }] } }

/-- With the list as the key, the write changes the text of the key. -/
theorem nested_property_misses :
    let c := selfNamedMachine.calls
    let m' := (perform (callMethod c (.object ⟨0, 0⟩) "setProp" #[.list 0, .int 1, .int 9])
      selfNamedMachine).2
    (selfNamedMachine.memory.heap.get? ⟨0, 0⟩).isSome ∧
    selfNamedMachine.memory.heap.property ⟨0, 0⟩ (selfNamedMachine.memory.text (.list 0)) =
      .list 0 ∧
    selfNamedMachine.memory.Takes (.int 1) (.list 0) ∧
    selfNamedMachine.memory.Apart (.int 1) (.list 0) ∧
    m'.memory.list 0 = #[.int 9, .int 2] ∧
    (perform (callMethod c (.object ⟨0, 0⟩) "getProp" #[.list 0, .int 1]) m').1 = .ok .void :=
  ⟨by decide +kernel, by decide +kernel, .list (by decide) (by decide),
    .of_cell? rfl (by trivial) _, by decide +kernel, by decide +kernel⟩

end Lingo
