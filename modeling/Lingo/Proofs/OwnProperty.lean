import Lingo.Proofs.NestedProperty

/-!
# Properties that methods set

Four methods of an object set a property of its own, and three read one: two of them
along the ancestor chain, and `getAt` in the same way, but for the link to the ancestor.
That is the object's own, and the key is taken for it in whatever case.

* `perform_assign`: the methods that set a property make one change of one object;
* `perform_lookUp`, `perform_getAt`: what the methods that read yield;
* `own_property_read_write`: what they yield after the others;
* `own_property_misses`: a property that `getAt` does not yield.
-/

namespace Lingo

open Machine
open Host (perform)

/-- The link of an object to its ancestor, as `getAt` yields it: 0 if there is none. -/
def Heap.shownLink (heap : Heap) (id : ObjectId) : Value :=
  match heap.own? id ancestorName with
  | some value => if value.isVoid then .int 0 else value
  | none => .int 0

theorem Heap.shownLink_of_own? {heap : Heap} {id : ObjectId} {value : Value}
    (h : heap.own? id ancestorName = some value) (ne : value.isVoid = false) :
    heap.shownLink id = value := by
  rw [shownLink, h]
  exact if_neg (by simp [ne])

/-- A name that is one of some means one of what these mean. -/
theorem MethodTable.exists_of_oneOf {β : Type} (table : MethodTable β) (fs : List β)
    {names : List String} {name : String} (is : OneOf names name)
    (listed : ∀ n ∈ names, ∃ f ∈ fs, table.find? n = some f) :
    ∃ f ∈ fs, table.find? name = some f := by
  obtain ⟨n, hn, same⟩ := is
  rw [find?, Text.sameName_iff.mp same]
  exact listed n hn

section

variable {c : Calls} {m : Machine} {id : ObjectId} {method : String} {key value : Value}

/-! ## The methods -/

/-- The fixed methods of an object do not fail. -/
theorem perform_objectMethod {f : ObjectMethod} {args : Array Value}
    (is : ObjectMethod.table.find? method = some f) :
    perform (callMethod c (.object id) method args) m =
      (.ok (f.run c id args m).1, (f.run c id args m).2) := by
  show perform (sure (callObject c id method args)) m = _
  rw [perform_sure, callObject, is]

/-- The methods that set a property make the same change. -/
theorem perform_assign (is : OneOf ["setaProp", "setAt", "setProp", "addProp"] method) :
    perform (callMethod c (.object id) method #[key, value]) m =
      (.ok .void, { m with memory :=
        m.memory.modifyHeap (·.setOwn id (m.memory.text key) value) }) := by
  obtain ⟨f, hf, found⟩ := MethodTable.exists_of_oneOf ObjectMethod.table
    [.setAt, .setProp, .addProp] is (by decide)
  have run : f.run c id #[key, value] m = ObjectMethod.run c id #[key, value] .setAt m := by
    simp only [List.mem_cons, List.not_mem_nil, or_false] at hf
    rcases hf with rfl | rfl | rfl <;> rfl
  rw [perform_objectMethod found, run]
  rfl

/-- The methods that read a property along the chain try its exact name first. -/
theorem perform_lookUp (is : OneOf ["getaProp", "getProp"] method)
    (found : m.memory.heap.property? id (m.memory.text key) = some value) :
    perform (callMethod c (.object id) method #[key]) m = (.ok value, m) := by
  obtain ⟨f, hf, listed⟩ := MethodTable.exists_of_oneOf ObjectMethod.table
    [.getaProp, .getProp] is (by decide)
  have run : f.run c id #[key] m = (ObjectMethod.lookUp m id key, m) := by
    simp only [List.mem_cons, List.not_mem_nil, or_false] at hf
    rcases hf with rfl | rfl <;> rfl
  rw [perform_objectMethod listed, run, ObjectMethod.lookUp, Heap.propertyFolded_of_property? found]

/-- With a key that is the name of the link, in whatever case, `getAt` yields the link. -/
theorem perform_getAt (is : OneOf ["getAt"] method) :
    perform (callMethod c (.object id) method #[key]) m =
      (.ok (if Text.sameName (m.memory.text key) ancestorName then m.memory.heap.shownLink id
        else m.memory.heap.propertyFolded id (m.memory.text key)), m) := by
  have listed : ObjectMethod.table.find? method = some .getAt :=
    MethodTable.find?_oneOf is (by decide)
  have run : ObjectMethod.run c id #[key] .getAt m =
      (if Text.sameName (m.memory.text key) ancestorName then m.memory.heap.shownLink id
        else m.memory.heap.propertyFolded id (m.memory.text key), m) := by
    unfold ObjectMethod.run
    dsimp only
    rw [show #[key][0]? = some key from rfl]
    dsimp only
    rw [get_bind_apply, Heap.shownLink]
    split
    · cases m.memory.heap.own? id ancestorName <;> rfl
    · rfl
  rw [perform_objectMethod listed, run]

end

/-- After one of the methods that set a property of an object, the methods that look
properties up along its chain yield the value. So does `getAt`, unless the key differs in
case from the name of the link, when it yields the link. Nothing but the property of the
object has changed. -/
theorem own_property_read_write {c : Calls} {m : Machine} {id : ObjectId} {key value : Value}
    {set : String} (isSet : OneOf ["setaProp", "setAt", "setProp", "addProp"] set)
    (live : (m.memory.heap.get? id).isSome) (textual : key.isTextual = true)
    (ne : value.isVoid = false) :
    let name := m.memory.text key
    ∃ heap', m.memory.heap.SetsOwn heap' id name value ∧
      let m' := { m with memory := { m.memory with heap := heap' } }
      perform (callMethod c (.object id) set #[key, value]) m = (.ok .void, m') ∧
      (∀ get, OneOf ["getaProp", "getProp"] get →
        perform (callMethod c (.object id) get #[key]) m' = (.ok value, m')) ∧
      ∀ get, OneOf ["getAt"] get →
        (name = ancestorName ∨ Text.sameName name ancestorName = false →
          perform (callMethod c (.object id) get #[key]) m' = (.ok value, m')) ∧
        (name ≠ ancestorName → Text.sameName name ancestorName = true →
          perform (callMethod c (.object id) get #[key]) m' =
            (.ok (m.memory.heap.shownLink id), m')) := by
  intro name
  let heap' := m.memory.heap.setOwn id name value
  have found : heap'.property? id name = some value := Heap.property?_setOwn_start live name value
  -- The key is a text or a symbol, whose name is the same in any memory.
  have named (memory : Memory) : memory.text key = name := by
    cases key with
    | text s | symbol s => rfl
    | _ => cases textual
  refine ⟨heap', Heap.setOwn_sets live name value, perform_assign isSet, fun get isGet => ?chain,
    fun get isGet => ⟨fun other => ?getAt, fun ne' same => ?link⟩⟩
  case chain => exact perform_lookUp isGet (by rw [named]; exact found)
  case getAt =>
    rw [perform_getAt isGet, named]
    split
    · rename_i same
      have link := other.resolve_right (by rw [same]; simp)
      have own : heap'.own? id ancestorName = some value :=
        link ▸ Heap.own?_setOwn_self live name value
      rw [Heap.shownLink_of_own? own ne]
    · rw [Heap.propertyFolded_of_property? found]
  case link =>
    rw [perform_getAt isGet, named, if_pos same]
    have kept : heap'.own? id ancestorName = m.memory.heap.own? id ancestorName :=
      Heap.own?_setOwn_ne m.memory.heap value (.inr ne'.symm)
    rw [Heap.shownLink, kept]
    rfl

/-- Two objects, the second of which is the ancestor of the first and has a speed. -/
def speedyMachine : Machine where
  memory := { heap := { objects := #[
    { properties := ⟨[("ancestor", .object ⟨0, 1⟩)]⟩ },
    { properties := ⟨[("pSpeed", .int 1)]⟩ }] } }

/-- The object gets a speed of its own; its ancestor keeps its own. -/
theorem own_property_read_write_speed :
    let c := speedyMachine.calls
    let key := Value.symbol "pspeed"
    let m' := (perform (callMethod c (.object ⟨0, 0⟩) "setaProp" #[key, .int 2]) speedyMachine).2
    m'.memory.heap.own? ⟨0, 1⟩ "pSpeed" = some (.int 1) ∧
    (perform (callMethod c (.object ⟨0, 0⟩) "getProp" #[key]) m').1 = .ok (.int 2) ∧
    (perform (callMethod c (.object ⟨0, 0⟩) "getAt" #[key]) m').1 = .ok (.int 2) := by
  intro c key m'
  obtain ⟨heap', -, set, look, getAt⟩ :=
    @own_property_read_write c speedyMachine ⟨0, 0⟩ key (.int 2) "setaProp"
      ⟨"setaProp", by decide, by decide⟩ (by decide +kernel) rfl rfl
  refine ⟨by decide +kernel, ?_, ?_⟩ <;>
    rw [show m' = { speedyMachine with memory := { speedyMachine.memory with heap := heap' } }
      from congrArg Prod.snd set]
  · rw [look "getProp" ⟨"getProp", by decide, by decide⟩]
  · rw [(getAt "getAt" ⟨"getAt", by decide, by decide⟩).1 (.inr (by decide))]

/-- A property with the name of the link in another case is set, and `getAt` yields the
link. -/
theorem own_property_misses :
    let c := speedyMachine.calls
    let key := Value.symbol "Ancestor"
    let m' := (perform (callMethod c (.object ⟨0, 1⟩) "setaProp" #[key, .int 5]) speedyMachine).2
    (speedyMachine.memory.heap.get? ⟨0, 1⟩).isSome ∧
    m'.memory.heap.own? ⟨0, 1⟩ "Ancestor" = some (.int 5) ∧
    (perform (callMethod c (.object ⟨0, 1⟩) "getaProp" #[key]) m').1 = .ok (.int 5) ∧
    (perform (callMethod c (.object ⟨0, 1⟩) "getAt" #[key]) m').1 = .ok (.int 0) := by
  decide +kernel

end Lingo
