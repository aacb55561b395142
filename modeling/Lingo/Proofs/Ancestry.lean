import Lingo.Proofs.Handles

/-!
# Properties along ancestor links

An object's properties are looked up in the object and its ancestors, in the
order in which the links lead to them. Links may lead round in circles, or to
objects that are no longer there.

* `Heap.chain_getElem?`: what a walk visits, in terms of how many links it has
  followed; it visits `maxChain` objects at most (`Heap.length_chain_le`);
* `Heap.owner?_eq_some_iff`, `Heap.owner?_eq_none_iff`: whose property a look-up
  finds;
* `property_write`: a write sets one property of one object, look-ups from the
  same object then find the value, and no other look-up is affected, unless the
  property is the link itself.
-/

namespace Lingo

/-! ## Setting an entry -/

namespace Bindings

variable {α : Type}

/-- The second table is the first with one name bound to a value: a bound name
keeps its place, and a new one comes last. -/
inductive Sets (b b' : Bindings α) (name : String) (value : α) : Prop
  | replaced (before : List (String × α)) (old : α) (after : List (String × α))
    (first : name ∉ before.map (·.1)) (was : b.entries = before ++ (name, old) :: after)
    (is : b'.entries = before ++ (name, value) :: after)
  | added (new : name ∉ b.keys) (is : b'.entries = b.entries ++ [(name, value)])

theorem insertEntries_of_not_mem {name : String} {value : α} {es : List (String × α)}
    (h : name ∉ es.map (·.1)) : insertEntries name value es = es ++ [(name, value)] := by
  induction es with
  | nil => rfl
  | cons e rest ih =>
    rw [List.map_cons, List.mem_cons, not_or] at h
    rw [insertEntries, if_neg (by simpa using Ne.symm h.1), ih h.2, List.cons_append]

theorem insertEntries_append {name : String} {value old : α} {before after : List (String × α)}
    (h : name ∉ before.map (·.1)) :
    insertEntries name value (before ++ (name, old) :: after) =
      before ++ (name, value) :: after := by
  induction before with
  | nil => simp [insertEntries]
  | cons e rest ih =>
    rw [List.map_cons, List.mem_cons, not_or] at h
    rw [List.cons_append, insertEntries, if_neg (by simpa using Ne.symm h.1), ih h.2,
      List.cons_append]

/-- The first entry of a name. -/
theorem exists_first_entry {name : String} {es : List (String × α)} (h : name ∈ es.map (·.1)) :
    ∃ before old after, name ∉ before.map (·.1) ∧ es = before ++ (name, old) :: after := by
  induction es with
  | nil => cases h
  | cons e rest ih =>
    obtain ⟨key, old⟩ := e
    by_cases hk : key = name
    · subst hk
      exact ⟨[], old, rest, by simp, rfl⟩
    · have later : name ∈ rest.map (·.1) := by
        rw [List.map_cons, List.mem_cons] at h
        exact h.resolve_left (Ne.symm hk)
      obtain ⟨before, old', after, first, rfl⟩ := ih later
      exact ⟨(key, old) :: before, old', after, by simp [Ne.symm hk, first], rfl⟩

theorem sets_insert (b : Bindings α) (name : String) (value : α) :
    Sets b (b.insert name value) name value := by
  by_cases h : name ∈ b.keys
  · obtain ⟨before, old, after, first, was⟩ := exists_first_entry h
    refine .replaced before old after first was ?_
    rw [insert, was]
    exact insertEntries_append first
  · exact .added h (insertEntries_of_not_mem h)

end Bindings

namespace Heap

variable {heap heap' : Heap} {start id : ObjectId} {name : String}

/-! ## Walks -/

theorem chainFrom_succ (heap : Heap) (limit : Nat) (id : ObjectId) :
    heap.chainFrom (limit + 1) id =
      if (heap.get? id).isSome then id :: (heap.ancestor? id).elim [] (heap.chainFrom limit)
      else [] := by
  rw [chainFrom, ancestor?]
  cases heap.get? id with
  | none => rfl
  | some object =>
    simp only [Option.isSome_some, if_true, Option.bind_some]
    cases object.ancestor? <;> rfl

/-- A walk visits the objects that links lead to, as long as there are such
objects and not too many. -/
theorem chainFrom_getElem? (heap : Heap) (limit k : Nat) (start : ObjectId) :
    (heap.chainFrom limit start)[k]? =
      if k < limit then (heap.ascend k start).filter fun id => (heap.get? id).isSome else none := by
  induction limit generalizing start k with
  | zero => rfl
  | succ limit ih =>
    rw [chainFrom_succ]
    cases hs : heap.get? start with
    | none =>
      -- No link leads on from a handle that addresses nothing.
      cases k with
      | zero => simp [ascend, Option.filter_some, hs]
      | succ k => simp [ascend, ancestor?, hs]
    | some object =>
      cases k with
      | zero => simp [ascend, Option.filter_some, hs]
      | succ k =>
        rw [if_pos Option.isSome_some, List.getElem?_cons_succ, ascend]
        cases heap.ancestor? start with
        | none => simp
        | some next => simpa using ih k next

theorem chain_getElem? (heap : Heap) (start : ObjectId) (k : Nat) :
    (heap.chain start)[k]? =
      if k < maxChain then (heap.ascend k start).filter fun id => (heap.get? id).isSome else none :=
  heap.chainFrom_getElem? maxChain k start

theorem length_chainFrom_le (heap : Heap) (limit : Nat) (start : ObjectId) :
    (heap.chainFrom limit start).length ≤ limit := by
  induction limit generalizing start with
  | zero => exact Nat.le_refl 0
  | succ limit ih =>
    rw [chainFrom_succ]
    split
    · rw [List.length_cons]
      cases heap.ancestor? start with
      | none => exact Nat.succ_le_succ (Nat.zero_le limit)
      | some next => exact Nat.succ_le_succ (ih next)
    · exact Nat.zero_le _

/-- Every walk comes to its end. -/
theorem length_chain_le (heap : Heap) (start : ObjectId) : (heap.chain start).length ≤ maxChain :=
  heap.length_chainFrom_le maxChain start

/-- A walk from an object begins with it. -/
theorem chain_of_live (live : (heap.get? start).isSome) :
    heap.chain start = start :: (heap.ancestor? start).elim [] (heap.chainFrom (maxChain - 1)) := by
  show heap.chainFrom (99 + 1) start = _
  rw [chainFrom_succ, if_pos live]
  rfl

/-- Walks depend on nothing but which objects there are and how they are linked. -/
theorem chain_congr (live : ∀ id, (heap'.get? id).isSome = (heap.get? id).isSome)
    (links : ∀ id, heap'.ancestor? id = heap.ancestor? id) (start : ObjectId) :
    heap'.chain start = heap.chain start := by
  have walks (limit : Nat) (start : ObjectId) :
      heap'.chainFrom limit start = heap.chainFrom limit start := by
    induction limit generalizing start with
    | zero => rfl
    | succ limit ih =>
      rw [chainFrom_succ, chainFrom_succ, live, links]
      cases heap.ancestor? start with
      | none => rfl
      | some next => simp only [Option.elim_some, ih]
  exact walks maxChain start

/-! ## Owners -/

/-- The object has a property of its own with the name. -/
def Declares (heap : Heap) (id : ObjectId) (name : String) : Prop :=
  (heap.own? id name).isSome

theorem Declares.live (h : heap.Declares id name) : (heap.get? id).isSome := by
  unfold Declares own? at h
  cases hg : heap.get? id with
  | none => simp [hg] at h
  | some object => rfl

/-- Of the objects that links lead to from `start`, up to `maxChain`, it is the
first that has such a property. -/
def Nearest (heap : Heap) (start : ObjectId) (name : String) (id : ObjectId) : Prop :=
  ∃ k < maxChain, heap.ascend k start = some id ∧ heap.Declares id name ∧
    ∀ j < k, ∀ x, heap.ascend j start = some x → ¬ heap.Declares x name

/-- None of the objects that links lead to from `start`, up to `maxChain`, has
such a property. -/
def Undeclared (heap : Heap) (start : ObjectId) (name : String) : Prop :=
  ∀ k < maxChain, ∀ x, heap.ascend k start = some x → ¬ heap.Declares x name

/-- An object that links lead to, and that is there, is visited. -/
theorem chain_getElem?_eq_some {k : Nat} (hk : k < maxChain) (ha : heap.ascend k start = some id)
    (live : (heap.get? id).isSome) : (heap.chain start)[k]? = some id := by
  rw [chain_getElem?, if_pos hk, ha, Option.filter_some, if_pos live]

theorem ascend_of_chain {k : Nat} (h : (heap.chain start)[k]? = some id) :
    k < maxChain ∧ heap.ascend k start = some id := by
  rw [chain_getElem?] at h
  split at h
  · rename_i hk
    exact ⟨hk, (Option.filter_eq_some_iff.mp h).1⟩
  · cases h

theorem owner?_eq_some_iff : heap.owner? start name = some id ↔ heap.Nearest start name id := by
  unfold owner? Nearest
  rw [List.find?_eq_some_iff_getElem]
  constructor
  · rintro ⟨declares, k, hk, rfl, before⟩
    obtain ⟨few, ha⟩ := ascend_of_chain (List.getElem?_eq_getElem hk)
    refine ⟨k, few, ha, declares, fun j hj x hx hd => ?_⟩
    have visited := chain_getElem?_eq_some (Nat.lt_trans hj few) hx hd.live
    obtain ⟨hj', rfl⟩ := List.getElem?_eq_some_iff.mp visited
    have free := before j hj
    rw [Bool.not_eq_true', Bool.eq_false_iff] at free
    exact free hd
  · rintro ⟨k, few, ha, declares, before⟩
    obtain ⟨hk, he⟩ := List.getElem?_eq_some_iff.mp (chain_getElem?_eq_some few ha declares.live)
    refine ⟨declares, k, hk, he, fun j hj => ?_⟩
    have free := before j hj _ (ascend_of_chain (List.getElem?_eq_getElem (Nat.lt_trans hj hk))).2
    rw [Bool.not_eq_true', Bool.eq_false_iff]
    exact free

theorem owner?_eq_none_iff : heap.owner? start name = none ↔ heap.Undeclared start name := by
  unfold owner? Undeclared
  rw [List.find?_eq_none]
  constructor
  · intro h k hk x hx hd
    have visited := chain_getElem?_eq_some hk hx hd.live
    exact h x (List.mem_of_getElem? visited) hd
  · intro h x hx hd
    obtain ⟨k, hk⟩ := List.mem_iff_getElem?.mp hx
    obtain ⟨few, ha⟩ := ascend_of_chain hk
    exact h k few x ha hd

/-- The link of an object is never another's. -/
theorem owner?_ancestorName (h : heap.owner? start ancestorName = some id) : id = start := by
  obtain ⟨k, -, ha, -, before⟩ := owner?_eq_some_iff.mp h
  cases k with
  | zero => exact (Option.some.inj ha).symm
  | succ k =>
    have unlinked := before 0 (Nat.succ_pos k) start rfl
    have none : heap.ancestor? start = none := by
      unfold Declares own? at unlinked
      unfold ancestor? Object.ancestor?
      cases hg : heap.get? start with
      | none => rfl
      | some object =>
        rw [hg, Option.bind_some, Option.not_isSome_iff_eq_none] at unlinked
        simp only [Option.bind_some, unlinked]
    rw [ascend, none] at ha
    cases ha

/-! ## Writes -/

/-- In the second heap, one object has one property set to a value, and all else is
as in the first. -/
structure SetsOwn (heap heap' : Heap) (id : ObjectId) (name : String) (value : Value) : Prop where
  generation : heap'.generation = heap.generation
  size : heap'.objects.size = heap.objects.size
  others : ∀ other, other ≠ id → heap'.get? other = heap.get? other
  object : ∃ object object', heap.get? id = some object ∧ heap'.get? id = some object' ∧
    object'.script = object.script ∧ object.properties.Sets object'.properties name value

theorem get?_setOwn (heap : Heap) (id : ObjectId) (name : String) (value : Value) :
    (heap.setOwn id name value).get? id =
      (heap.get? id).map fun o => { o with properties := o.properties.insert name value } :=
  get?_modify heap id _

theorem get?_setOwn_ne (heap : Heap) (name : String) (value : Value) {other : ObjectId}
    (h : other ≠ id) : (heap.setOwn id name value).get? other = heap.get? other :=
  get?_modify_ne heap _ (Ne.symm h)

theorem setOwn_sets (live : (heap.get? id).isSome) (name : String) (value : Value) :
    heap.SetsOwn (heap.setOwn id name value) id name value where
  generation := modify_generation heap id _
  size := modify_size heap id _
  others _ h := heap.get?_setOwn_ne name value h
  object := by
    obtain ⟨object, hg⟩ := Option.isSome_iff_exists.mp live
    let object' := { object with properties := object.properties.insert name value }
    refine ⟨object, object', hg, ?_, rfl, object.properties.sets_insert name value⟩
    rw [get?_setOwn, hg, Option.map_some]

theorem isSome_get?_setOwn (heap : Heap) (id : ObjectId) (name : String) (value : Value)
    (other : ObjectId) :
    ((heap.setOwn id name value).get? other).isSome = (heap.get? other).isSome := by
  by_cases h : other = id
  · rw [h, get?_setOwn, Option.isSome_map]
  · rw [get?_setOwn_ne heap name value h]

theorem own?_setOwn_self (live : (heap.get? id).isSome) (name : String) (value : Value) :
    (heap.setOwn id name value).own? id name = some value := by
  obtain ⟨object, hg⟩ := Option.isSome_iff_exists.mp live
  rw [own?, get?_setOwn, hg]
  exact object.properties.get?_insert_self name value

/-- Other properties, and those of other objects, stay. -/
theorem own?_setOwn_ne (heap : Heap) (value : Value) {other : ObjectId} {key : String}
    (h : other ≠ id ∨ key ≠ name) :
    (heap.setOwn id name value).own? other key = heap.own? other key := by
  by_cases ho : other = id
  · subst ho
    have hk := h.resolve_left (not_not_intro rfl)
    rw [own?, own?, get?_setOwn]
    cases heap.get? other with
    | none => rfl
    | some object =>
      rw [Option.map_some, Option.bind_some, Option.bind_some, Bindings.get?_insert, if_neg hk]
  · rw [own?, own?, get?_setOwn_ne heap name value ho]

/-- The links are as they were, unless the property is the link. -/
theorem ancestor?_setOwn (heap : Heap) (id : ObjectId) (value : Value) (h : name ≠ ancestorName)
    (other : ObjectId) :
    (heap.setOwn id name value).ancestor? other = heap.ancestor? other := by
  by_cases ho : other = id
  · rw [ho, ancestor?, ancestor?, get?_setOwn]
    cases heap.get? id with
    | none => rfl
    | some object =>
      simp only [Option.map_some, Option.bind_some, Object.ancestor?, Bindings.get?_insert,
        if_neg (Ne.symm h)]
  · rw [ancestor?, ancestor?, get?_setOwn_ne heap name value ho]

theorem chain_setOwn (heap : Heap) (id : ObjectId) (value : Value) (h : name ≠ ancestorName)
    (start : ObjectId) : (heap.setOwn id name value).chain start = heap.chain start :=
  chain_congr (heap.isSome_get?_setOwn id name value) (heap.ancestor?_setOwn id value h) start

/-! ## Reads after writes -/

/-- Where the property is set on the object that look-ups begin with, they find
it there, even if it is the link. -/
theorem property?_setOwn_start (live : (heap.get? start).isSome) (name : String) (value : Value) :
    (heap.setOwn start name value).property? start name = some value := by
  have own := own?_setOwn_self live name value
  have there : ((heap.setOwn start name value).get? start).isSome := by
    rw [isSome_get?_setOwn]
    exact live
  have owner : (heap.setOwn start name value).owner? start name = some start := by
    rw [owner?, chain_of_live there]
    exact List.find?_cons_of_pos (by rw [own]; rfl)
  rw [property?, owner, Option.bind_some, own]

/-- Where the property is set on its owner, look-ups find it there. -/
theorem property?_setOwn_owner (h : heap.owner? start name = some id) (ne : name ≠ ancestorName)
    (value : Value) : (heap.setOwn id name value).property? start name = some value := by
  obtain ⟨-, -, -, declares, -⟩ := owner?_eq_some_iff.mp h
  have own := own?_setOwn_self declares.live name value
  have same (x : ObjectId) :
      ((heap.setOwn id name value).own? x name).isSome = (heap.own? x name).isSome := by
    by_cases hx : x = id
    · rw [hx, own]
      exact declares.symm
    · rw [own?_setOwn_ne heap value (.inl hx)]
  have owner : (heap.setOwn id name value).owner? start name = some id := by
    rw [owner?, chain_setOwn heap id value ne]
    simp only [same]
    exact h
  rw [property?, owner, Option.bind_some, own]

/-- Look-ups of other properties find what they found. -/
theorem property?_setOwn_ne (heap : Heap) (id : ObjectId) (value : Value) (ne : name ≠ ancestorName)
    {key : String} (other : key ≠ name) (start : ObjectId) :
    (heap.setOwn id name value).property? start key = heap.property? start key := by
  have same (x : ObjectId) : (heap.setOwn id name value).own? x key = heap.own? x key :=
    own?_setOwn_ne heap value (.inr other)
  rw [property?, property?, owner?, owner?, chain_setOwn heap id value ne]
  simp only [same]

/-- Along the chain, the property is set on the nearest object that has it, or on the
first one. -/
theorem setProperty_sets (live : (heap.get? start).isSome) (name : String) (value : Value) :
    ∃ owner, (heap.Nearest start name owner ∨ heap.Undeclared start name ∧ owner = start) ∧
      heap.SetsOwn (heap.setProperty start name value) owner name value := by
  rw [setProperty]
  cases h : heap.owner? start name with
  | none => exact ⟨start, .inr ⟨owner?_eq_none_iff.mp h, rfl⟩, setOwn_sets live name value⟩
  | some owner =>
    obtain ⟨-, -, -, declares, -⟩ := owner?_eq_some_iff.mp h
    exact ⟨owner, .inl (owner?_eq_some_iff.mp h), setOwn_sets declares.live name value⟩

/-- Look-ups from the same object find what was set along the chain. -/
theorem property?_setProperty (live : (heap.get? start).isSome) (name : String) (value : Value) :
    (heap.setProperty start name value).property? start name = some value := by
  rw [setProperty]
  cases h : heap.owner? start name with
  | none => exact property?_setOwn_start live name value
  | some owner =>
    by_cases ne : name = ancestorName
    · -- The write may change the chain, but it does so at its first object.
      subst ne
      obtain rfl := owner?_ancestorName h
      exact property?_setOwn_start live ancestorName value
    · exact property?_setOwn_owner h ne value

end Heap

/-- A property is set on the nearest object that has it, or on the object itself
where none has it. That is the only change. Look-ups from the object then find
the value, also if the property is the link to its ancestor; and if it is not,
look-ups of other properties find what they found, from whatever object. No walk
visits more than `maxChain` objects. -/
theorem property_write (heap : Heap) {start : ObjectId} (live : (heap.get? start).isSome)
    (name : String) (value : Value) :
    let heap' := heap.setProperty start name value
    (∃ owner, (heap.Nearest start name owner ∨ heap.Undeclared start name ∧ owner = start) ∧
      heap.SetsOwn heap' owner name value) ∧
    heap'.property start name = value ∧
    (name ≠ ancestorName → ∀ other key, key ≠ name →
      heap'.property other key = heap.property other key) ∧
    ∀ other, (heap.chain other).length ≤ Heap.maxChain ∧
      (heap'.chain other).length ≤ Heap.maxChain := by
  intro heap'
  refine ⟨?change, ?read, fun ne other key hk => ?frame, fun other => ?walks⟩
  case change => exact Heap.setProperty_sets live name value
  case read => rw [Heap.property, Heap.property?_setProperty live, Option.getD_some]
  case frame =>
    simp only [heap', Heap.property, Heap.setProperty, Heap.property?_setOwn_ne heap _ value ne hk]
  case walks => exact ⟨heap.length_chain_le other, heap'.length_chain_le other⟩

/-- Two objects that are each other's ancestors; the second has a speed. -/
def ringHeap : Heap where
  objects := #[
    { properties := ⟨[("ancestor", .object ⟨0, 1⟩)]⟩ },
    { properties := ⟨[("pSpeed", .int 1), ("ancestor", .object ⟨0, 0⟩)]⟩ }]

theorem property_write_ring :
    let heap := ringHeap.setProperty ⟨0, 0⟩ "pSpeed" (.int 5)
    heap.own? ⟨0, 1⟩ "pSpeed" = some (.int 5) ∧ heap.property ⟨0, 0⟩ "pSpeed" = .int 5 ∧
      heap.property ⟨0, 1⟩ "ancestor" = .object ⟨0, 0⟩ := by
  have live : (ringHeap.get? ⟨0, 0⟩).isSome := by decide +kernel
  have write := property_write ringHeap live "pSpeed" (.int 5)
  refine ⟨by decide +kernel, write.2.1, ?_⟩
  rw [write.2.2.1 (by decide) _ _ (by decide)]
  decide +kernel

end Lingo
