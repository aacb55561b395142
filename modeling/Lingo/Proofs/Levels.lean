import Lingo.Proofs.Ancestry
import Lingo.Proofs.Tracing

/-!
# Levels of an ancestor chain

The objects of a chain are its levels. Each has the handlers of its script, and
`callAncestor` goes on above the level whose script is running: the first one with that
script.

* `Heap.chain_after`: what follows a level of a chain is the chain of its ancestor;
* `findObjectHandler?_eq`: a handler of an object is that of the first level that has one;
* `perform_callAncestors_last`, `perform_callAncestors_next`: what a call of an ancestor's
  handler runs, said of the chain split at the running level.
-/

namespace Lingo

open Machine
open Host (perform)

namespace Heap

variable {heap : Heap} {start id : ObjectId}

/-- A walk that ends by itself is the same with a greater limit. -/
theorem chainFrom_eq_of_length_lt {limit limit' : Nat}
    (few : (heap.chainFrom limit start).length < limit) (le : limit ≤ limit') :
    heap.chainFrom limit' start = heap.chainFrom limit start := by
  induction limit generalizing start limit' with
  | zero => cases few
  | succ limit ih =>
    obtain ⟨limit', rfl⟩ : ∃ n, limit' = n + 1 := ⟨limit' - 1, by omega⟩
    rw [chainFrom_succ] at few ⊢
    rw [chainFrom_succ]
    split
    · rw [if_pos ‹_›] at few
      cases hs : heap.ancestor? start with
      | none => rfl
      | some next =>
        rw [hs] at few
        rw [Option.elim_some, Option.elim_some,
          ih (Nat.lt_of_succ_lt_succ few) (Nat.le_of_succ_le_succ le)]
    · rfl

theorem chainFrom_after {limit : Nat} {before after : List ObjectId} (le : limit ≤ maxChain)
    (few : (heap.chainFrom limit start).length < limit)
    (split : heap.chainFrom limit start = before ++ id :: after) :
    (heap.ancestor? id).elim [] heap.chain = after := by
  induction before generalizing limit start with
  | nil =>
    obtain ⟨limit, rfl⟩ : ∃ n, limit = n + 1 := ⟨limit - 1, by omega⟩
    rw [chainFrom_succ] at few split
    split at split
    · rw [if_pos ‹_›] at few
      obtain ⟨rfl, rfl⟩ := List.cons.inj split
      cases hs : heap.ancestor? start with
      | none => rfl
      | some next =>
        rw [hs] at few
        exact chainFrom_eq_of_length_lt (Nat.lt_of_succ_lt_succ few) (Nat.le_of_succ_le le)
    · cases split
  | cons b before ih =>
    obtain ⟨limit, rfl⟩ : ∃ n, limit = n + 1 := ⟨limit - 1, by omega⟩
    rw [chainFrom_succ] at few split
    split at split
    · rw [if_pos ‹_›] at few
      have tail := (List.cons.inj split).2
      cases hs : heap.ancestor? start with
      | none =>
        rw [hs] at tail
        cases before <;> cases tail
      | some next =>
        rw [hs] at few tail
        exact ih (Nat.le_of_succ_le le) (Nat.lt_of_succ_lt_succ few) tail
    · cases split

/-- What follows an object on a chain that is not cut short is the chain of its
ancestor. -/
theorem chain_after {before after : List ObjectId} (few : (heap.chain start).length < maxChain)
    (split : heap.chain start = before ++ id :: after) :
    (heap.ancestor? id).elim [] heap.chain = after :=
  chainFrom_after (Nat.le_refl _) few split

end Heap

/-! ## Handlers of scripts -/

theorem Names.name_of_get? {names : Names} {id : Int32} {s : String} (h : names.get? id = some s) :
    names.name id = s := by
  rw [name, h, Option.getD_some]

namespace HandlerSite

variable {library : Library} {script : Script} {site : HandlerSite} {name name' : String}

theorem find?_sameName (same : Text.sameName name' name = true) :
    find? library script name' = find? library script name := by
  have folded := Text.sameName_iff.mp same
  simp only [find?, Script.handlerNamed?, Text.sameName, folded]

/-- A handler that is found is of the script, and has the name. -/
theorem find?_found (h : find? library script name = some site) :
    site.library = library ∧ site.script = script ∧ Text.sameName site.name name = true := by
  obtain ⟨index, hi, there⟩ := Option.bind_eq_some_iff.mp h
  unfold at? at there
  split at there
  · rename_i hk
    obtain rfl := Option.some.inj there
    obtain ⟨_, named, -⟩ := Array.findIdx?_eq_some_iff_getElem.mp hi
    refine ⟨rfl, rfl, ?_⟩
    show Text.sameName (library.names.name script.handlers[index].nameId) name = true
    cases hs : library.names.get? script.handlers[index].nameId with
    | none =>
      rw [hs] at named
      cases named
    | some s =>
      rw [hs] at named
      rw [Names.name_of_get? hs]
      exact named
  · cases there

end HandlerSite

namespace Machine

variable {m : Machine} {ref : ScriptRef} {site : HandlerSite} {name name' : String}

theorem findHandlerIn?_sameName (same : Text.sameName name' name = true) (ref : ScriptRef) :
    m.findHandlerIn? ref name' = m.findHandlerIn? ref name := by
  simp only [findHandlerIn?, CastLibraries.findHandlerIn?, HandlerSite.find?_sameName same]

theorem findHandlerIn?_found (h : m.findHandlerIn? ref name = some site) :
    site.scriptRef = ref ∧ Text.sameName site.name name = true := by
  unfold findHandlerIn? at h
  split at h
  · rename_i own
    obtain rfl := Option.some.inj h
    obtain ⟨⟨library, script⟩, there, found⟩ := Option.bind_eq_some_iff.mp own
    obtain ⟨movie, -, there⟩ := Option.bind_eq_some_iff.mp there
    split at there
    · rename_i number
      obtain ⟨_, hs, same⟩ := Option.bind_eq_some_iff.mp there
      cases same
      obtain ⟨rfl, rfl, named⟩ := HandlerSite.find?_found found
      refine ⟨?_, named⟩
      have member := Array.find?_some hs
      rw [HandlerSite.scriptRef, eq_of_beq number, eq_of_beq member]
    · cases there
  · obtain ⟨casts, -, found⟩ := Option.bind_eq_some_iff.mp h
    obtain ⟨library, hl, found⟩ := Option.bind_eq_some_iff.mp found
    obtain ⟨script, hs, found⟩ := Option.bind_eq_some_iff.mp found
    obtain ⟨rfl, rfl, named⟩ := HandlerSite.find?_found found
    refine ⟨?_, named⟩
    have number := List.find?_some hl
    have member := Array.find?_some hs
    rw [HandlerSite.scriptRef, eq_of_beq number, eq_of_beq member]

/-! ## Levels -/

/-- The script of an object. -/
def levelScript? (m : Machine) (id : ObjectId) : Option ScriptRef :=
  (m.memory.heap.get? id).bind Object.script

/-- The handler with a name that the script of an object has. -/
def levelSite? (m : Machine) (name : String) (id : ObjectId) : Option HandlerSite :=
  (m.levelScript? id).bind fun ref => m.findHandlerIn? ref name

/-- A handler of an object is that of the first level that has one. -/
theorem findObjectHandler?_eq (m : Machine) (start : ObjectId) (name : String) :
    m.findObjectHandler? start name =
      (m.memory.heap.chain start).findSome? (m.levelSite? name) := by
  refine congrArg (List.findSome? · _) (funext fun id => ?_)
  exact (Option.bind_assoc ..).symm

theorem levelSite?_found {id : ObjectId} (h : m.levelSite? name id = some site) :
    m.levelScript? id = some site.scriptRef ∧ Text.sameName site.name name = true := by
  obtain ⟨ref, script, found⟩ := Option.bind_eq_some_iff.mp h
  obtain ⟨rfl, named⟩ := findHandlerIn?_found found
  exact ⟨script, named⟩

theorem levelSite?_sameName (same : Text.sameName name' name = true) :
    m.levelSite? name' = m.levelSite? name := by
  funext id
  exact congrArg (Option.bind _) (funext fun ref => findHandlerIn?_sameName same ref)

section

variable {me level : ObjectId} {before after : List ObjectId}

/-- Where each level has a script of its own, it is the first one with its script. -/
theorem level_distinct
    (distinct : ((m.memory.heap.chain me).map m.levelScript?).Nodup)
    (split : m.memory.heap.chain me = before ++ level :: after)
    (is : m.levelSite? name level = some site) :
    level ∈ m.memory.heap.chain me ∧ m.levelScript? level = some site.scriptRef ∧
      ∀ id ∈ before, m.levelScript? id ≠ some site.scriptRef := by
  have script := (levelSite?_found is).1
  refine ⟨by rw [split]; simp, script, fun id hid => ?_⟩
  rw [split, List.map_append, List.map_cons] at distinct
  have apart := (List.nodup_append.mp distinct).2.2
  exact script ▸ apart _ (List.mem_map_of_mem hid) _ (List.mem_cons_self ..)

/-- A script that levels have is the script of a first one. -/
theorem exists_first_level {levels : List ObjectId} {script? : Option ScriptRef}
    (has : script? ∈ levels.map m.levelScript?) :
    ∃ before level after, levels = before ++ level :: after ∧ m.levelScript? level = script? ∧
      ∀ id ∈ before, m.levelScript? id ≠ script? := by
  obtain ⟨scripts, later, split, new⟩ := List.eq_append_cons_of_mem has
  obtain ⟨before, rest, rfl, rfl, tail⟩ := List.map_eq_append_iff.mp split
  obtain ⟨level, after, rfl, rfl, -⟩ := List.map_eq_cons_iff.mp tail
  exact ⟨before, level, after, rfl, rfl, fun id hid same => new (same ▸ List.mem_map_of_mem hid)⟩

/-- If levels do not have a script each, there is one with a script from below. -/
theorem exists_repeated_level {levels : List ObjectId}
    (repeated : ¬ (levels.map m.levelScript?).Nodup) :
    ∃ before again after, levels = before ++ again :: after ∧
      m.levelScript? again ∈ before.map m.levelScript? := by
  induction levels using List.reverseRecOn with
  | nil => exact absurd List.nodup_nil repeated
  | append_singleton levels level ih =>
    by_cases distinct : (levels.map m.levelScript?).Nodup
    · refine ⟨levels, level, [], rfl, Classical.not_not.mp fun new => repeated ?_⟩
      rw [List.map_append, List.map_singleton]
      exact List.nodup_append.mpr ⟨distinct, List.nodup_singleton _, fun _ h _ h' => by
        rw [List.mem_singleton.mp h']
        exact fun same => new (same ▸ h)⟩
    · obtain ⟨before, again, after, rfl, repeats⟩ := ih distinct
      exact ⟨before, again, after ++ [level], by simp, repeats⟩

end

/-! ## Calls of an ancestor's handler -/

section

variable {c : Calls} {me level : ObjectId} {before after : List ObjectId} {top : Frame}

/-- The running level is the first one with the running script. -/
theorem runningLevel_eq (running : m.top? = some top)
    (split : m.memory.heap.chain me = before ++ level :: after)
    (is : m.levelScript? level = some top.site.scriptRef)
    (first : ∀ id ∈ before, m.levelScript? id ≠ some top.site.scriptRef) :
    m.runningLevel me = level := by
  have found : (m.memory.heap.chain me).find?
      (fun id => m.levelScript? id == some top.site.scriptRef) = some level := by
    rw [split, List.find?_append, List.find?_eq_none.mpr (by simpa using first), Option.none_or]
    exact List.find?_cons_of_pos (by rw [is]; exact beq_self_eq_true _)
  rw [runningLevel, running]
  exact congrArg (Option.getD · me) found

variable (name c)
  (few : (m.memory.heap.chain me).length < Heap.maxChain) (running : m.top? = some top)
  (is : m.levelScript? level = some top.site.scriptRef)
  (first : ∀ id ∈ before, m.levelScript? id ≠ some top.site.scriptRef)

include few running is first

/-- From the last level, no handler is called. -/
theorem perform_callAncestors_last (split : m.memory.heap.chain me = before ++ [level]) :
    ∃ log, perform (callAncestors c name #[] [me] .void) m = (.ok .void, { m with log }) := by
  have above := Heap.chain_after few split
  rw [callAncestors, perform_get_bind, runningLevel_eq running split is first]
  cases ha : m.memory.heap.ancestor? level with
  | none => exact ⟨_, rfl⟩
  | some start =>
    rw [ha, Option.elim_some] at above
    have none : m.findObjectHandler? start name = none := by
      rw [findObjectHandler?_eq, above, List.findSome?_nil]
    dsimp only
    rw [none]
    exact ⟨m.log, rfl⟩

/-- From any other level, the handler of the next one is called. -/
theorem perform_callAncestors_next {next : ObjectId}
    (split : m.memory.heap.chain me = before ++ level :: next :: after)
    (has : m.levelSite? name next = some site) :
    perform (callAncestors c name #[] [me] .void) m =
      perform (c.activate site #[.object me] (.object me)) m := by
  have above := Heap.chain_after few split
  rw [callAncestors, perform_get_bind, runningLevel_eq running split is first]
  cases ha : m.memory.heap.ancestor? level with
  | none =>
    rw [ha] at above
    cases above
  | some start =>
    rw [ha, Option.elim_some] at above
    have found : m.findObjectHandler? start name = some site := by
      rw [findObjectHandler?_eq, above, List.findSome?_cons_of_isSome (by rw [has]; rfl), has]
    dsimp only
    rw [found]
    exact congrArg (perform · m) (bind_pure (c.activate site #[.object me] (.object me)))

end

end Machine

end Lingo
