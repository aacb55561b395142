import Lingo.Proofs.OwnProperty
import Lingo.Proofs.Sound

/-!
# Lines of ancestors

The method `addAt` of an object makes it a line of ancestors: a new object of each script
that a list names, linked to the one before, and the first of them to the object itself.

* `Heap.addLine`: what this does to the heap, `Heap.AddsLine` how the heap is then;
* `Heap.chainFrom_of_leads`: the walk along links in a row;
* `perform_addAt`: the method as a change of the heap, where the scripts have no `new`
  handler;
* `ancestors_reachable`: the objects that it creates are reached from the object;
* `ancestors_missed`: where that is not so.
-/

namespace Lingo

open Machine
open Host (perform)

/-- The object with a link to its ancestor, if there is one. -/
def Object.linkedTo (object : Object) (next? : Option ObjectId) : Object :=
  next?.elim object fun next =>
    { object with properties := object.properties.insert ancestorName (.object next) }

@[simp] theorem Object.linkedTo_script (object : Object) (next? : Option ObjectId) :
    (object.linkedTo next?).script = object.script := by
  cases next? <;> rfl

namespace Heap

variable {heap heap' : Heap} {start id : ObjectId}

/-! ## Links in a row -/

/-- From an object, links lead to these objects one after the other, and no further. -/
def Leads (heap : Heap) : ObjectId → List ObjectId → Prop
  | id, [] => heap.ancestor? id = none
  | id, next :: rest => heap.ancestor? id = some next ∧ heap.Leads next rest

/-- A walk with room for them visits the objects that the links lead to. -/
theorem chainFrom_of_leads {rest : List ObjectId} {limit : Nat}
    (live : ∀ id ∈ start :: rest, (heap.get? id).isSome) (leads : heap.Leads start rest)
    (few : rest.length < limit) : heap.chainFrom limit start = start :: rest := by
  induction rest generalizing start limit with
  | nil =>
    obtain ⟨limit, rfl⟩ : ∃ n, limit = n + 1 := ⟨limit - 1, by omega⟩
    rw [chainFrom_succ, if_pos (live start (by simp)), show heap.ancestor? start = none from leads]
    rfl
  | cons next rest ih =>
    obtain ⟨limit, rfl⟩ : ∃ n, limit = n + 1 := ⟨limit - 1, by omega⟩
    rw [chainFrom_succ, if_pos (live start (by simp)), leads.1, Option.elim_some,
      ih (fun id h => live id (List.mem_cons_of_mem _ h)) leads.2 (Nat.lt_of_succ_lt_succ few)]

/-! ## New objects -/

/-- The handles of the objects that are added next. -/
def nextIds (heap : Heap) (n : Nat) : List ObjectId :=
  (List.range' heap.objects.size n).map fun index => ⟨heap.generation, index⟩

theorem nextIds_succ (heap : Heap) (n : Nat) :
    heap.nextIds (n + 1) = ⟨heap.generation, heap.objects.size⟩ ::
      (List.range' (heap.objects.size + 1) n).map fun index => ⟨heap.generation, index⟩ := rfl

theorem length_nextIds (heap : Heap) (n : Nat) : (heap.nextIds n).length = n := by
  rw [nextIds, List.length_map, List.length_range']

/-- None of them is the handle of an object yet. -/
theorem get?_nextIds {n : Nat} (h : id ∈ heap.nextIds n) : heap.get? id = none := by
  obtain ⟨index, hi, rfl⟩ := List.mem_map.mp h
  have new := (List.mem_range'_1.mp hi).1
  rw [get?, if_pos (beq_self_eq_true _)]
  exact Array.getElem?_eq_none new

theorem get?_alloc_self (heap : Heap) (object : Object) :
    (heap.alloc object).2.get? (heap.alloc object).1 = some object := by
  simp [alloc, get?]

theorem ne_alloc (live : (heap.get? id).isSome) (object : Object) : id ≠ (heap.alloc object).1 := by
  rintro rfl
  exact Nat.lt_irrefl _ (get?_isSome_iff.mp live).2

/-- The other objects of a heap are the same, among more objects. -/
theorem get?_alloc_ne {object : Object} (ne : id ≠ (heap.alloc object).1) :
    (heap.alloc object).2.get? id = heap.get? id := by
  have apart (h : id.generation = heap.generation) : id.index ≠ heap.objects.size :=
    fun hi => ne (by rw [alloc, ← h, ← hi])
  rw [get?, get?, alloc]
  split
  · rename_i h
    have other := apart (eq_of_beq h)
    rw [Array.getElem?_push, if_neg other]
  · rfl

theorem get?_alloc (live : (heap.get? id).isSome) (object : Object) :
    (heap.alloc object).2.get? id = heap.get? id :=
  get?_alloc_ne (ne_alloc live object)

/-! ## Adding a line of objects -/

/-- Adds objects and links each to the one before, the first to `previous`. -/
def addLine : Option ObjectId → List Object → Heap → Heap
  | _, [], heap => heap
  | previous, object :: rest, heap =>
    let (id, heap) := heap.alloc object
    addLine (some id) rest
      (previous.elim heap fun previous => heap.setOwn previous ancestorName (.object id))

/-- The second heap is the first one with a line of objects: the links lead to them from
an object, one after the other. -/
structure AddsLine (heap heap' : Heap) (start : ObjectId) (objects : List Object) : Prop where
  generation : heap'.generation = heap.generation
  size : heap'.objects.size = heap.objects.size + objects.length
  leads : heap'.Leads start (heap.nextIds objects.length)
  added : List.Forall₂ (fun id object => ∃ next?, heap'.get? id = some (object.linkedTo next?))
    (heap.nextIds objects.length) objects
  linked : heap'.get? start =
    (heap.get? start).map (·.linkedTo (heap.nextIds objects.length).head?)
  others : ∀ other, other ≠ start → (heap.get? other).isSome →
    heap'.get? other = heap.get? other

theorem ancestor?_setOwn_self (live : (heap.get? id).isSome) (next : ObjectId) :
    (heap.setOwn id ancestorName (.object next)).ancestor? id = some next := by
  obtain ⟨object, hg⟩ := Option.isSome_iff_exists.mp live
  rw [ancestor?, get?_setOwn, hg]
  simp [Object.ancestor?]

/-- A line of objects without links of their own, from an object that has no other link
if the line is empty. -/
theorem addLine_adds {objects : List Object} (live : (heap.get? start).isSome)
    (last : objects = [] → heap.ancestor? start = none)
    (unlinked : ∀ object ∈ objects, object.ancestor? = none) :
    heap.AddsLine (addLine (some start) objects heap) start objects := by
  induction objects generalizing heap start with
  | nil =>
    refine ⟨rfl, rfl, last rfl, .nil, ?_, fun _ _ _ => rfl⟩
    show heap.get? start = (heap.get? start).map id
    rw [Option.map_id_apply]
  | cons object rest ih =>
    let new := (heap.alloc object).1
    let linked := (heap.alloc object).2.setOwn start ancestorName (.object new)
    have apart : start ≠ new := ne_alloc live object
    have there : ((heap.alloc object).2.get? start).isSome := by
      rw [get?_alloc live]
      exact live
    have created : linked.get? new = some object :=
      (get?_setOwn_ne _ _ _ (Ne.symm apart)).trans (get?_alloc_self heap object)
    have free : linked.ancestor? new = none := by
      rw [ancestor?, created]
      exact unlinked object (List.mem_cons_self ..)
    have generation : linked.generation = heap.generation := modify_generation _ _ _
    have size : linked.objects.size = heap.objects.size + 1 :=
      (modify_size _ _ _).trans (Array.size_push ..)
    have ids : heap.nextIds (rest.length + 1) = new :: linked.nextIds rest.length := by
      rw [nextIds_succ, nextIds, generation, size]
      rfl
    have later : linked.AddsLine (addLine (some start) (object :: rest) heap) new rest :=
      ih (Option.isSome_of_eq_some created) (fun _ => free)
        fun o h => unlinked o (List.mem_cons_of_mem _ h)
    have kept (x : ObjectId) (ne : x ≠ new) (hx : ((heap.alloc object).2.get? x).isSome) :
        (addLine (some start) (object :: rest) heap).get? x = linked.get? x :=
      later.others x ne (by rw [isSome_get?_setOwn]; exact hx)
    refine ⟨later.generation.trans generation, ?size, ?leads, ?added, ?linked,
      fun x ne hx => ?others⟩
    case size =>
      rw [later.size, size, List.length_cons, Nat.add_assoc, Nat.add_comm 1]
    case leads =>
      rw [List.length_cons, ids]
      refine ⟨?_, later.leads⟩
      rw [ancestor?, kept start apart there]
      exact ancestor?_setOwn_self there new
    case added =>
      rw [List.length_cons, ids]
      refine .cons ⟨(linked.nextIds rest.length).head?, ?_⟩ later.added
      rw [later.linked, created, Option.map_some]
    case linked =>
      rw [List.length_cons, ids, kept start apart there]
      exact (get?_setOwn ..).trans (congrArg _ (get?_alloc live object))
    case others =>
      have there : ((heap.alloc object).2.get? x).isSome := by
        rw [get?_alloc hx]
        exact hx
      rw [kept x (ne_alloc hx object) there]
      exact (get?_setOwn_ne _ _ _ ne).trans (get?_alloc hx object)

/-- Where there is room for it, a walk visits the object and its line. -/
theorem AddsLine.chain {objects : List Object} (adds : heap.AddsLine heap' start objects)
    (live : (heap.get? start).isSome) (few : objects.length < maxChain) :
    heap'.chain start = start :: heap.nextIds objects.length := by
  refine chainFrom_of_leads (fun id hid => ?_) adds.leads (by rw [length_nextIds]; exact few)
  rcases List.mem_cons.mp hid with rfl | new
  · rw [adds.linked, Option.isSome_map]
    exact live
  · obtain ⟨k, hk, rfl⟩ := List.getElem_of_mem new
    obtain ⟨next?, there⟩ := adds.added.get hk (by rw [length_nextIds] at hk; exact hk)
    exact Option.isSome_of_eq_some there

/-! ## The order of changes -/

theorem ext_get? (generation : heap'.generation = heap.generation)
    (same : ∀ id, heap'.get? id = heap.get? id) : heap' = heap := by
  cases heap with | mk objects number =>
  cases heap' with | mk objects' number' =>
  obtain rfl : number' = number := generation
  congr 1
  refine Array.ext_getElem? fun i => ?_
  simpa [get?] using same ⟨number', i⟩

/-- Properties of two objects are set in either order. -/
theorem setOwn_comm {a b : ObjectId} (ne : a ≠ b) (name key : String) (v w : Value) :
    (heap.setOwn a name v).setOwn b key w = (heap.setOwn b key w).setOwn a name v := by
  refine ext_get? ?_ fun id => ?_
  · simp only [setOwn, modify_generation]
  · by_cases ha : id = a
    · subst ha
      rw [get?_setOwn_ne _ _ _ ne, get?_setOwn, get?_setOwn, get?_setOwn_ne _ _ _ ne]
    · by_cases hb : id = b
      · subst hb
        rw [get?_setOwn, get?_setOwn_ne _ _ _ ha, get?_setOwn_ne _ _ _ ha, get?_setOwn]
      · rw [get?_setOwn_ne _ _ _ hb, get?_setOwn_ne _ _ _ ha, get?_setOwn_ne _ _ _ ha,
          get?_setOwn_ne _ _ _ hb]

/-- A property of an object is set before or after another object is added. -/
theorem alloc_setOwn (live : (heap.get? id).isSome) (name : String) (v : Value)
    (object : Object) :
    (heap.setOwn id name v).alloc object =
      ((heap.alloc object).1, (heap.alloc object).2.setOwn id name v) := by
  have generation : (heap.setOwn id name v).generation = heap.generation := modify_generation _ _ _
  have size : (heap.setOwn id name v).objects.size = heap.objects.size := modify_size _ _ _
  have handle : ((heap.setOwn id name v).alloc object).1 = (heap.alloc object).1 := by
    rw [alloc, alloc, generation, size]
  refine Prod.ext handle (ext_get? ?_ fun other => ?_)
  · exact generation.trans (modify_generation (heap.alloc object).2 id _).symm
  · by_cases new : other = (heap.alloc object).1
    · subst new
      rw [get?_setOwn_ne _ _ _ (ne_alloc live object).symm, get?_alloc_self, ← handle,
        get?_alloc_self]
    · rw [get?_alloc_ne (by rw [handle]; exact new)]
      by_cases same : other = id
      · subst same
        rw [get?_setOwn, get?_setOwn, get?_alloc_ne new]
      · rw [get?_setOwn_ne _ _ _ same, get?_setOwn_ne _ _ _ same, get?_alloc_ne new]

/-- A property of an object is set before or after a line that does not begin with it is
added. -/
theorem addLine_setOwn {previous : ObjectId} (live : (heap.get? id).isSome) (ne : previous ≠ id)
    (name : String) (v : Value) (objects : List Object) :
    addLine (some previous) objects (heap.setOwn id name v) =
      (addLine (some previous) objects heap).setOwn id name v := by
  induction objects generalizing heap previous with
  | nil => rfl
  | cons object rest ih =>
    have there : (((heap.alloc object).2.setOwn previous ancestorName
        (.object (heap.alloc object).1)).get? id).isSome := by
      rw [isSome_get?_setOwn, get?_alloc live]
      exact live
    simp only [addLine, alloc_setOwn live, Option.elim_some, setOwn_comm ne.symm,
      ih there (ne_alloc live object).symm]

/-- The link to a line is made before or after the line is added. -/
theorem addLine_none (live : (heap.get? id).isSome) (object : Object) (rest : List Object) :
    (addLine none (object :: rest) heap).setOwn id ancestorName (.object (heap.alloc object).1) =
      addLine (some id) (object :: rest) heap := by
  have there : ((heap.alloc object).2.get? id).isSome := by
    rw [get?_alloc live]
    exact live
  exact (addLine_setOwn there (ne_alloc live object).symm ..).symm

end Heap

/-! ## Texts while objects are added -/

namespace Memory

theorem displayTo?_modifyHeap (m : Memory) (f : Heap → Heap) (written : Option Nat) (n : Nat)
    (v : Value) : (m.modifyHeap f).displayTo? written n v = m.displayTo? written n v := by
  induction n generalizing v with
  | zero => rfl
  | succ n ih =>
    have same : (m.modifyHeap f).displayTo? written n = m.displayTo? written n := funext ih
    cases v with
    | list cell =>
      rw [displayTo?, displayTo?, same, show (m.modifyHeap f).list cell = m.list cell from rfl]
    | propList cell =>
      rw [displayTo?_propList, displayTo?_propList, same,
        show (m.modifyHeap f).props cell = m.props cell from rfl]
    | _ => rfl

/-- Texts do not depend on the objects. -/
theorem text_modifyHeap (m : Memory) (f : Heap → Heap) (v : Value) :
    (m.modifyHeap f).text v = m.text v := by
  have displayed : (m.modifyHeap f).displayTo? none m.levels v = m.displayTo? none m.levels v :=
    m.displayTo?_modifyHeap f none m.levels v
  cases v with
  | void | text s | symbol s => rfl
  | _ => exact congrArg (·.getD "") displayed

end Memory

/-! ## The method that adds a line -/

namespace Machine

/-- A new object of a script, its declared properties void. -/
def blank (m : Machine) (ref : ScriptRef) : Object where
  script := some ref
  properties := .ofList ((m.scriptProperties ref).map fun name => (name, .void))

/-- The scripts that values name, where there are such. -/
def namedScripts (m : Machine) (names : List Value) : List ScriptRef :=
  names.filterMap fun name => m.scriptNamed? (m.memory.text name)

/-- What is logged of those that name no script, in order. -/
def unnamedEntries (m : Machine) (names : List Value) : List LogEntry :=
  names.filterMap fun name =>
    if (m.scriptNamed? (m.memory.text name)).isNone then
      some ⟨.warn, .vm, "ancestor chain: no script named " ++ Text.quote (m.memory.text name), [],
        true⟩
    else none

variable {c : Calls} {m : Machine}

theorem blank_ancestor? (m : Machine) (ref : ScriptRef) : (m.blank ref).ancestor? = none := by
  have voids (names : List String) (b : Bindings Value) (key : String)
      (hb : b.get? key = none ∨ b.get? key = some .void) :
      let b' := (names.map fun name => (name, Value.void)).foldl
        (fun b entry => b.insert entry.1 entry.2) b
      b'.get? key = none ∨ b'.get? key = some .void := by
    induction names generalizing b with
    | nil => exact hb
    | cons name rest ih =>
      refine ih (b.insert name .void) ?_
      rw [Bindings.get?_insert]
      split
      · exact .inr rfl
      · exact hb
  rw [Object.ancestor?]
  rcases voids (m.scriptProperties ref) {} ancestorName (.inl rfl) with h | h
  · rw [show (m.blank ref).properties.get? ancestorName = none from h]
  · rw [show (m.blank ref).properties.get? ancestorName = some .void from h]

/-- Where neither the host nor the script has a `new` of its own, an object is added. -/
theorem perform_construct {ref : ScriptRef} (host : m.hosts.lookup "new" = none)
    (plain : m.findHandlerIn? ref "new" = none) :
    perform (construct c #[.script ref]) m =
      (.ok (.object (m.memory.heap.alloc (m.blank ref)).1),
        { m with memory := m.memory.modifyHeap fun heap => (heap.alloc (m.blank ref)).2 }) := by
  rw [construct, perform_get_bind, host]
  show perform (instantiate c ref #[]) m = _
  rw [instantiate, perform_get_bind, perform_sure_bind, perform_get_bind]
  split
  · rfl
  · rename_i found
    cases plain.symm.trans found

theorem namedScripts_modifyHeap (m : Machine) (f : Heap → Heap) (names : List Value) :
    ({ m with memory := m.memory.modifyHeap f } : Machine).namedScripts names =
      m.namedScripts names := by
  simp only [namedScripts, Memory.text_modifyHeap]
  rfl

theorem unnamedEntries_modifyHeap (m : Machine) (f : Heap → Heap) (names : List Value) :
    ({ m with memory := m.memory.modifyHeap f } : Machine).unnamedEntries names =
      m.unnamedEntries names := by
  simp only [unnamedEntries, Memory.text_modifyHeap]
  rfl

section

variable {name : Value} {rest : List Value} {first previous : Option ObjectId}

/-- A name without a script is passed over. -/
theorem linkAncestors_unnamed (h : m.scriptNamed? (m.memory.text name) = none) :
    ObjectMethod.linkAncestors c (name :: rest) first previous m =
      ObjectMethod.linkAncestors c rest first previous
        { m with log := (m.unnamedEntries [name]).reverse ++ m.log } := by
  have entry : m.unnamedEntries [name] = [⟨.warn, .vm,
      "ancestor chain: no script named " ++ Text.quote (m.memory.text name), [], true⟩] :=
    List.filterMap_cons_some (by rw [h]; rfl)
  rw [ObjectMethod.linkAncestors, get_bind_apply, get_bind_apply, h, entry]
  rfl

/-- The object of a script is added, and linked to the one before. -/
theorem linkAncestors_named {ref : ScriptRef} (h : m.scriptNamed? (m.memory.text name) = some ref)
    (host : m.hosts.lookup "new" = none) (plain : m.findHandlerIn? ref "new" = none) :
    let new := (m.memory.heap.alloc (m.blank ref)).1
    ObjectMethod.linkAncestors c (name :: rest) first previous m =
      ObjectMethod.linkAncestors c rest (first <|> some new) (some new)
        { m with memory := m.memory.modifyHeap (Heap.addLine previous [m.blank ref]) } := by
  intro new
  rw [ObjectMethod.linkAncestors, get_bind_apply, get_bind_apply, h]
  dsimp only
  rw [update_bind_apply, contained_ok (perform_construct host plain)]
  cases previous <;> rfl

end

/-- A line of ancestors, where the scripts have no `new` of their own: their objects are
added, each linked to the one before, and the first one is yielded. -/
theorem linkAncestors_apply {names : List Value} (host : m.hosts.lookup "new" = none)
    (plain : ∀ ref ∈ m.namedScripts names, m.findHandlerIn? ref "new" = none)
    (first previous : Option ObjectId) :
    ObjectMethod.linkAncestors c names first previous m =
      (some (first <|> (m.memory.heap.nextIds (m.namedScripts names).length).head?),
        { m with
          memory := m.memory.modifyHeap (Heap.addLine previous ((m.namedScripts names).map m.blank))
          log := (m.unnamedEntries names).reverse ++ m.log }) := by
  induction names generalizing m first previous with
  | nil =>
    cases first <;> rfl
  | cons name rest ih =>
    have later : ∀ ref ∈ m.namedScripts rest, m.findHandlerIn? ref "new" = none := fun ref h =>
      plain ref ((List.sublist_cons_self name rest).filterMap _ |>.mem h)
    cases h : m.scriptNamed? (m.memory.text name) with
    | none =>
      have scripts : m.namedScripts (name :: rest) = m.namedScripts rest :=
        List.filterMap_cons_none h
      have entries : m.unnamedEntries (name :: rest) =
          m.unnamedEntries [name] ++ m.unnamedEntries rest :=
        List.filterMap_append (l := [name])
      let m₁ : Machine := { m with log := (m.unnamedEntries [name]).reverse ++ m.log }
      rw [linkAncestors_unnamed h, scripts, entries, List.reverse_append, List.append_assoc]
      exact @ih m₁ host later first previous
    | some ref =>
      have scripts : m.namedScripts (name :: rest) = ref :: m.namedScripts rest :=
        List.filterMap_cons_some h
      have entries : m.unnamedEntries (name :: rest) = m.unnamedEntries rest :=
        List.filterMap_cons_none (by rw [h]; rfl)
      have new := plain ref (by rw [scripts]; exact List.mem_cons_self ..)
      let link := Heap.addLine previous [m.blank ref]
      let m₁ : Machine := { m with memory := m.memory.modifyHeap link }
      have same : m₁.namedScripts rest = m.namedScripts rest := namedScripts_modifyHeap m link rest
      have same' : m₁.unnamedEntries rest = m.unnamedEntries rest :=
        unnamedEntries_modifyHeap m link rest
      rw [linkAncestors_named h host new, scripts, entries]
      refine (@ih m₁ host (by rw [same]; exact later) _ _).trans ?_
      rw [same, same']
      cases first <;> rfl

/-- The method adds the line to the object itself. -/
theorem perform_addAt {id : ObjectId} {method : String} {cell : Nat} (is : OneOf ["addAt"] method)
    (live : (m.memory.heap.get? id).isSome) (host : m.hosts.lookup "new" = none)
    (plain : ∀ ref ∈ m.namedScripts ((m.memory.list cell).toList.take Heap.maxChain),
      m.findHandlerIn? ref "new" = none) :
    let names := (m.memory.list cell).toList.take Heap.maxChain
    perform (callMethod c (.object id) method #[.int 1, .list cell]) m =
      (.ok .void, { m with
        memory := m.memory.modifyHeap
          (Heap.addLine (some id) ((m.namedScripts names).map m.blank))
        log := (m.unnamedEntries names).reverse ++ m.log }) := by
  intro names
  have listed : ObjectMethod.table.find? method = some .addAt :=
    MethodTable.find?_oneOf is (by decide)
  have built : ObjectMethod.buildAncestors c id (m.memory.list cell).toList m =
      ((), { m with
        memory := m.memory.modifyHeap
          (Heap.addLine (some id) ((m.namedScripts names).map m.blank))
        log := (m.unnamedEntries names).reverse ++ m.log }) := by
    rw [ObjectMethod.buildAncestors, update_bind_apply, linkAncestors_apply host plain]
    cases hs : m.namedScripts names with
    | nil => rfl
    | cons ref rest =>
      -- The link from the object itself is made last.
      have linked := Heap.addLine_none live (m.blank ref) (rest.map m.blank)
      rw [List.map_cons, Memory.modifyHeap, Memory.modifyHeap, ← linked]
      rfl
  have run : ObjectMethod.run c id #[.int 1, .list cell] .addAt m =
      (.void, (ObjectMethod.buildAncestors c id (m.memory.list cell).toList m).2) := rfl
  rw [perform_objectMethod listed, run, built]

end Machine

/-- With `addAt`, an object gets new ancestors: one of each script that the first
`maxChain` elements of a list name, where no such script has a `new` handler and the host
has no `new` of its own. The links then lead from the object to them in the order of the
names, and a walk visits exactly these, if they are fewer than `maxChain`. No other object
has changed, and of the object itself only the link. Where no element names a script,
nothing has changed but the log. -/
theorem ancestors_reachable {c : Calls} {m : Machine} {id : ObjectId} {method : String}
    {cell : Nat} (is : OneOf ["addAt"] method) (live : (m.memory.heap.get? id).isSome)
    (host : m.hosts.lookup "new" = none)
    (plain : ∀ ref ∈ m.namedScripts ((m.memory.list cell).toList.take Heap.maxChain),
      m.findHandlerIn? ref "new" = none) :
    let heap := m.memory.heap
    let names := (m.memory.list cell).toList.take Heap.maxChain
    let objects := (m.namedScripts names).map m.blank
    let created := heap.nextIds objects.length
    ∃ heap',
      perform (callMethod c (.object id) method #[.int 1, .list cell]) m =
        (.ok .void, { m with
          memory := { m.memory with heap := heap' }
          log := (m.unnamedEntries names).reverse ++ m.log }) ∧
      (∀ new ∈ created, heap.get? new = none) ∧
      (objects = [] → heap' = heap) ∧
      (objects ≠ [] → heap.AddsLine heap' id objects ∧
        (objects.length < Heap.maxChain → heap'.chain id = id :: created)) := by
  intro heap names objects created
  refine ⟨Heap.addLine (some id) objects heap, perform_addAt is live host plain,
    fun new h => Heap.get?_nextIds h, fun empty => ?_, fun nonempty => ?_⟩
  · rw [empty]
    rfl
  · have adds : heap.AddsLine (Heap.addLine (some id) objects heap) id objects := by
      refine Heap.addLine_adds live (fun empty => absurd empty nonempty) fun object h => ?_
      obtain ⟨ref, -, rfl⟩ := List.mem_map.mp h
      exact m.blank_ancestor? ref
    exact ⟨adds, adds.chain live⟩

/-- A movie with two scripts, and two objects, the second of which is the ancestor of the
first. -/
def breedingMachine (names : List Value) (hosts : List (String × HostFunction)) : Machine where
  memory := {
    lists := #[names.toArray]
    heap := { objects := #[{ properties := ⟨[("ancestor", .object ⟨0, 1⟩)]⟩ }, {}] } }
  movie := some {
    scripts := #[{ member := 1, kind := .parent, name := "A" },
      { member := 2, kind := .parent, name := "B" }] }
  hosts := hosts

/-- The first object gets two ancestors, and one name is passed over. -/
theorem ancestors_reachable_two :
    let m := breedingMachine [.text "b", .text "C", .symbol "A"] []
    let m' := (perform (callMethod m.calls (.object ⟨0, 0⟩) "addAt" #[.int 1, .list 0]) m).2
    m'.memory.heap.chain ⟨0, 0⟩ = [⟨0, 0⟩, ⟨0, 2⟩, ⟨0, 3⟩] ∧
      (m'.memory.heap.get? ⟨0, 2⟩).bind Object.script = some ⟨1, 2⟩ := by
  intro m m'
  obtain ⟨heap', eq, -, -, line⟩ := @ancestors_reachable m.calls m ⟨0, 0⟩ "addAt" 0
    ⟨"addAt", by decide, by decide⟩ (by decide +kernel) rfl (by decide +kernel)
  obtain ⟨adds, walk⟩ := line (by decide +kernel)
  have objects : (m.namedScripts ((m.memory.list 0).toList.take Heap.maxChain)).map m.blank =
      [{ script := some ⟨1, 2⟩ }, { script := some ⟨1, 1⟩ }] := by decide +kernel
  rw [objects] at adds walk
  rw [show m' = _ from congrArg Prod.snd eq]
  refine ⟨walk (by decide), ?_⟩
  obtain ⟨next?, first⟩ := (List.forall₂_cons.mp adds.added).1
  refine (congrArg (·.bind Object.script) first).trans ?_
  rw [Option.bind_some, Object.linkedTo_script]

/-- Without a script to make an ancestor of, the object keeps the one that it has; of a
hundred new ancestors, the last one is not visited; and where the host makes something
else of scripts, there are no new ancestors. -/
theorem ancestors_missed :
    let after (names : List Value) (hosts : List (String × HostFunction)) : Heap :=
      let m := breedingMachine names hosts
      (perform (callMethod m.calls (.object ⟨0, 0⟩) "addAt" #[.int 1, .list 0]) m).2.memory.heap
    (∀ ref : ScriptRef, ref ∈ [⟨1, 1⟩, ⟨1, 2⟩] →
      (breedingMachine [] []).findHandlerIn? ref "new" = none) ∧
    (after [] []).objects.size = 2 ∧ (after [] []).chain ⟨0, 0⟩ = [⟨0, 0⟩, ⟨0, 1⟩] ∧
    (after (.replicate 100 (.text "A")) []).objects.size = 102 ∧
    ((after (.replicate 100 (.text "A")) []).chain ⟨0, 0⟩).length = 100 ∧
    (after [.text "A"] [("new", .constant .void)]).chain ⟨0, 0⟩ = [⟨0, 0⟩, ⟨0, 1⟩] := by
  decide +kernel

end Lingo
