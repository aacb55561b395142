import Lingo.Proofs.Visit

/-!
# Script objects last

Nothing that a machine runs takes a script object away, gives its place to
another, or makes it one of another script.

* `Routine.keeps`: what is put together from primitive changes and calls keeps
  the objects if the calls do;
* `runFrame_keeps`, `activate_keeps`: so do frames, by induction on how many
  instructions are left, and activations, by induction on the levels of calls
  that are left;
* `objects_last`: what follows for the host and for its handles.
-/

namespace Lingo

open Machine
open Host (perform)

variable {α : Type}

/-- The second machine has the functions of the host of the first, and its script
objects. -/
structure Keeps (m m' : Machine) : Prop where
  hosts : m'.hosts = m.hosts
  heap : m.memory.heap.Grows m'.memory.heap

namespace Keeps

variable {m m₁ m₂ : Machine}

theorem refl (m : Machine) : Keeps m m :=
  ⟨rfl, .refl _⟩

theorem trans (h₁ : Keeps m m₁) (h₂ : Keeps m₁ m₂) : Keeps m m₂ :=
  ⟨h₂.hosts.trans h₁.hosts, h₁.heap.trans h₂.heap⟩

/-- Where neither changes. -/
theorem of_same (hosts : m₁.hosts = m.hosts) (memory : m₁.memory = m.memory) : Keeps m m₁ :=
  ⟨hosts, .of_eq (congrArg Memory.heap memory)⟩

end Keeps

theorem Primitive.keeps {touch : Prop} {u : Update α} (h : Primitive touch u) (hk : Keeping u)
    (m : Machine) : Keeps m (u m).2 :=
  have steady : Steady touch True m (u m).2 := h.steady m
  ⟨steady.hosts, (hk m).heap⟩

/-- With these functions of the host, the action keeps all objects. -/
def KeepsFrom (functions : List (String × HostFunction)) (a : Action α) : Prop :=
  ∀ m : Machine, m.hosts = functions → Keeps m (perform a m).2

/-- Calls that keep all objects. -/
structure KeepingCalls (functions : List (String × HostFunction)) (c : Calls) : Prop where
  activate : ∀ site args receiver, KeepsFrom functions (c.activate site args receiver)
  reenter : ∀ name args, KeepsFrom functions (c.reenter name args)

theorem stopWith_keeps (message : String) (m : Machine) : Keeps m (stopWith message m).2 :=
  .of_same rfl rfl

/-! ## Routines -/

section

variable {functions : List (String × HostFunction)} {c : Calls}

theorem KeepsFrom.bind {β : Type} {a : Action α} {f : α → Action β} (ha : KeepsFrom functions a)
    (hf : ∀ v, KeepsFrom functions (f v)) : KeepsFrom functions (a >>= f) := by
  intro m hosts
  have first := ha m hosts
  rcases he : perform a m with ⟨fault | v, m₁⟩
  · rw [he] at first
    rw [perform_bind_error he]
    exact first
  · rw [he] at first
    rw [perform_bind_ok he]
    exact first.trans (hf v m₁ (first.hosts.trans hosts))

theorem KeepsFrom.contained {a : Action α} (ha : KeepsFrom functions a)
    (message : Fault → String) : KeepsFrom functions (sure (contained a message)) := by
  intro m hosts
  have kept := ha m hosts
  rcases he : perform a m with ⟨fault | v, m₁⟩
  · rw [he] at kept
    rw [perform_contained_error he]
    exact kept.trans (stopWith_keeps _ m₁)
  · rw [he] at kept
    rw [perform_contained_ok he]
    exact kept

theorem Routine.keeps {H : Hosting} {touch call : Prop} {a : Calls → Action α}
    (h : Routine H touch call a) (hc : KeepingCalls H.functions c) :
    KeepsFrom H.functions (a c) := by
  induction h with
  | pure v => exact fun m _ => .refl m
  | bind _ _ iha ihf => exact .bind iha ihf
  | read _ _ ih => exact fun m hosts => ih m hosts m hosts
  | work h keeps => exact fun m _ => h.keeps keeps m
  | write => exact fun m _ => ⟨rfl, .refl _⟩
  | throw | fail => exact fun m _ => .refl m
  | stop => exact fun m _ => .of_same rfl rfl
  | activate _ site args receiver => exact hc.activate site args receiver
  | reenter _ name args => exact hc.reenter name args
  | contain _ _ message ih => exact .contained ih message

end

/-! ## Frames -/

/-- The host may forward calls as it likes. -/
def Hosting.free (functions : List (String × HostFunction)) : Hosting :=
  ⟨functions, fun _ _ => True⟩

theorem Hosting.free_open (functions : List (String × HostFunction)) :
    (Hosting.free functions).Open :=
  fun _ _ _ _ => trivial

theorem fetch_keeps {m : Machine} {frame : Frame} {i : Instruction}
    (hn : m.next? = some (frame, i)) : Keeps m (fetch frame i m).2 := by
  obtain ⟨rest, log, events, -, he⟩ := fetch_frames hn
  rw [he]
  exact .of_same rfl rfl

theorem takeResult_keeps (m : Machine) : Keeps m (takeResult m).2 := by
  unfold Machine.takeResult
  rw [modifyGet_apply]
  split <;> exact .of_same rfl rfl

section

variable {functions : List (String × HostFunction)} {c : Calls} (hc : KeepingCalls functions c)

include hc

theorem execute_keeps (i : Instruction) : KeepsFrom functions (Step.execute c i) := by
  cases hi : i.opcode.isCall with
  | false => exact (Step.execute_routine (H := .free functions) hi).keeps hc
  | true => exact (Step.execute_call_routine (Hosting.free_open functions) hi).keeps hc

theorem runFrame_keeps (name : String) (limit remaining : Nat) :
    KeepsFrom functions (runFrame c name limit remaining) := by
  induction remaining with
  | zero =>
    intro m hosts
    cases hn : m.next? with
    | none =>
      rw [runFrame_done hn]
      exact takeResult_keeps m
    | some next =>
      rw [runFrame_exhausted hn]
      exact .refl m
  | succ remaining ih =>
    intro m hosts
    cases hn : m.next? with
    | none =>
      rw [runFrame_done hn]
      exact takeResult_keeps m
    | some next =>
      obtain ⟨frame, i⟩ := next
      have fetched := fetch_keeps hn
      have stepped := fetched.trans (execute_keeps hc i _ (fetched.hosts.trans hosts))
      rcases he : perform (Step.execute c i) (fetch frame i m).2 with ⟨fault | u, m₁⟩
      · rw [he] at stepped
        rw [runFrame_fault hn he]
        exact stepped
      · rw [he] at stepped
        rw [runFrame_next hn he]
        exact stepped.trans (ih m₁ (stepped.hosts.trans hosts))

end

/-! ## Activations -/

section

variable {functions : List (String × HostFunction)}

theorem enterHandler_keeps (frame : Frame) (m : Machine) : Keeps m (enterHandler frame m).2 := by
  obtain ⟨call, log, events, he, -⟩ := enterHandler_eq frame m
  rw [he]
  exact .of_same rfl rfl

theorem leaveHandler_keeps (call : CallInfo) (outcome : Except Fault Value) (m : Machine) :
    Keeps m (leaveHandler call outcome m).2 := by
  obtain ⟨log, events, he, -⟩ := leaveHandler_eq call outcome m
  rw [he]
  exact .of_same rfl rfl

theorem handling_keeps (m : Machine) (site : HandlerSite) : Keeps m (m.handling site) := by
  unfold handling
  split <;> exact .of_same rfl rfl

theorem handled_keeps (m : Machine) (site : HandlerSite) : Keeps m (m.handled site) := by
  unfold handled
  split <;> exact .of_same rfl rfl

/-- A handler that is not skipped runs in its frame between its start and its
end. -/
theorem guarded_keeps {c : Calls} (hc : KeepingCalls functions c) (site : HandlerSite)
    (args : Array Value) (receiver : Value) {m : Machine} (hosts : m.hosts = functions)
    (outermost : isErrorHandler site.name = true → m.errorHandlers = 0) :
    Keeps m (perform ((if isErrorHandler site.name then runErrorHandler else runHandler) c site
      args receiver) m).2 := by
  rcases hs : enterHandler (Frame.enter site args receiver) (m.handling site) with ⟨call, m₁⟩
  have started : Keeps m m₁ := by
    have entered := enterHandler_keeps (Frame.enter site args receiver) (m.handling site)
    rw [hs] at entered
    exact (handling_keeps m site).trans entered
  have ran := runFrame_keeps hc site.name m₁.config.stepLimit m₁.config.stepLimit m₁
    (started.hosts.trans hosts)
  rw [perform_guarded outermost hs rfl]
  dsimp only
  exact ((started.trans ran).trans (leaveHandler_keeps call _ _)).trans (handled_keeps _ site)

/-- Calls that the host forwards keep what activations keep, by induction on how
often it does. -/
theorem callsWith_keeps {activate : HandlerSite → Array Value → Value → Action Value}
    (acts : ∀ site args receiver, KeepsFrom functions (activate site args receiver)) (hops : Nat) :
    KeepingCalls functions (callsWith activate hops) := by
  induction hops with
  | zero => exact ⟨acts, fun name args m _ => .refl m⟩
  | succ hops ih =>
    refine ⟨acts, fun name args => ?_⟩
    have forwarded : Routine (.free functions) True True fun c => callHandler c name args :=
      callHandler_routine ((Hosting.free_open functions).serves name args) fun _ => trivial
    exact forwarded.keeps ih

theorem activate_keeps (remaining : Nat) (site : HandlerSite) (args : Array Value)
    (receiver : Value) : KeepsFrom functions (activate remaining site args receiver) := by
  induction remaining generalizing site args receiver with
  | zero =>
    intro m hosts
    cases stopped : m.stopped with
    | true =>
      rw [activate_stopped 0 site args receiver stopped]
      exact .refl m
    | false =>
      rw [activate_overflow site args receiver stopped (.inl rfl)]
      exact .refl m
  | succ remaining ih =>
    intro m hosts
    cases stopped : m.stopped with
    | true =>
      rw [activate_stopped _ site args receiver stopped]
      exact .refl m
    | false =>
      rcases Nat.lt_or_ge m.depth m.config.maxCallDepth with shallow | deep
      · rw [activate_succ remaining site args receiver stopped shallow]
        by_cases outermost : isErrorHandler site.name = true → m.errorHandlers = 0
        · exact guarded_keeps (callsWith_keeps ih _) site args receiver hosts outermost
        · obtain ⟨handles, nested⟩ := Classical.not_imp.mp outermost
          rw [perform_nested handles (Nat.pos_of_ne_zero nested)]
          exact .of_same rfl rfl
      · rw [activate_overflow site args receiver stopped (.inr deep)]
        exact .refl m

end

/-- The calls of every machine keep all objects. -/
theorem calls_keeping (functions : List (String × HostFunction)) (remaining hops : Nat) :
    KeepingCalls functions (callsWith (activate remaining) hops) :=
  callsWith_keeps (fun _ _ _ => activate_keeps remaining _ _ _) hops

/-! ## The host -/

theorem Entry.keeps (entry : Entry) (m : Machine) : Keeps m (perform entry.action m).2 := by
  rw [entry.perform_action]
  exact (entry.body_hosted (Hosting.free_open m.hosts)).keeps (calls_keeping m.hosts _ _) m rfl

/-- A visit of the host that does not drop the objects, nor make one an object of
another script itself. -/
def Visit.KeepsObjects : Visit → Prop
  | .reset => False
  | .heap op => op.Keeps
  | _ => True

theorem Visit.take_grows {visit : Visit} (h : visit.KeepsObjects) (m : Machine) :
    m.memory.heap.Grows (visit.take m).memory.heap := by
  have quiet {α : Type} {u : Update α} (hu : Keeping u) (m : Machine) :
      m.memory.heap.Grows (u m).2.memory.heap := (hu m).heap
  cases visit with
  | enter entry => exact (entry.keeps m).heap
  | reset => exact h.elim
  | heap op => exact .apply op h m.memory.heap
  | setGlobal name value => exact quiet (.noteSet .global name value) m
  | setMovieProp name value => exact quiet (.setMovieProp name value) m
  | setMemberProp castLib member prop value =>
    exact quiet (.setMemberProp castLib member prop value) m
  | _ => exact .refl _

theorem afterVisits_grows {visits : List Visit} (h : ∀ visit ∈ visits, visit.KeepsObjects)
    (m : Machine) : m.memory.heap.Grows (afterVisits visits m).memory.heap := by
  induction visits generalizing m with
  | nil => exact .refl _
  | cons visit visits ih =>
    have first := Visit.take_grows (h visit (List.mem_cons_self ..)) m
    exact first.trans (ih (fun v hv => h v (List.mem_cons_of_mem _ hv)) _)

/-- The script objects of the first machine last until the second: their handles
address them, and they are objects of the same scripts. -/
structure ObjectsLast (m m' : Machine) : Prop where
  size : m.memory.heap.objects.size ≤ m'.memory.heap.objects.size
  get? : ∀ id object, m.memory.heap.get? id = some object →
    ∃ object', m'.memory.heap.get? id = some object' ∧ object'.script = object.script

theorem ObjectsLast.of_grows {m m' : Machine} (h : m.memory.heap.Grows m'.memory.heap) :
    ObjectsLast m m' :=
  ⟨h.size_le, fun _ _ hid => h.get? hid⟩

/-- Script objects are never lost, recycled or made objects of other scripts:
whatever a host has a machine run, whatever instruction is executed and whatever
handler activated in it, and over all visits of a host that does not drop them.

A handle that an operation on a heap gives out is none of those given out since
the heap was cleared last. Whatever happens to the heap later, the handle
addresses an object, to be read or changed, if and only if the number of times
that the heap was cleared is a multiple of `2 ^ 32` and there are so many
objects; so it does not address what takes its place when the heap was cleared
less often than that. -/
theorem objects_last :
    (∀ (entry : Entry) (m : Machine), ObjectsLast m (perform entry.action m).2) ∧
    (∀ (remaining hops : Nat) (i : Instruction) (m : Machine),
      ObjectsLast m (perform (Step.execute (callsWith (activate remaining) hops) i) m).2) ∧
    (∀ (remaining : Nat) (site : HandlerSite) (args : Array Value) (receiver : Value)
      (m : Machine), ObjectsLast m (perform (activate remaining site args receiver) m).2) ∧
    (∀ (visits : List Visit) (m : Machine), (∀ visit ∈ visits, visit.KeepsObjects) →
      ObjectsLast m (afterVisits visits m)) ∧
    (∀ (heap : Heap) (first second : HeapOp) (between : List HeapOp) (id id' : ObjectId),
      (first.apply heap).1 = some id → Heap.clears between = 0 →
      (second.apply ((first.apply heap).2.after between)).1 = some id' → id ≠ id') ∧
    ∀ (heap : Heap) (op : HeapOp) (later : List HeapOp) (id : ObjectId),
      (op.apply heap).1 = some id →
      let now := (op.apply heap).2.after later
      ((now.get? id).isSome ↔ 2 ^ 32 ∣ Heap.clears later ∧ id.index < now.objects.size) ∧
      (∀ f, (now.modify id f).get? id = (now.get? id).map f ∧
        (now.get? id = none → now.modify id f = now)) ∧
      (0 < Heap.clears later → Heap.clears later < 2 ^ 32 → now.get? id = none) := by
  refine ⟨?entry, ?instruction, ?activation, ?visits, ?distinct, ?resolves⟩
  case entry => exact fun entry m => .of_grows (entry.keeps m).heap
  case instruction =>
    exact fun remaining hops i m =>
      .of_grows (execute_keeps (calls_keeping m.hosts remaining hops) i m rfl).heap
  case activation =>
    exact fun remaining site args receiver m =>
      .of_grows (activate_keeps remaining site args receiver m rfl).heap
  case visits => exact fun visits m h => .of_grows (afterVisits_grows h m)
  case distinct => exact fun heap first second between id id' h kept h' => Heap.issued_ne h kept h'
  case resolves =>
    intro heap op later id h now
    refine ⟨Heap.isSome_after_iff h later, fun f => ?_, Heap.get?_after_cleared h⟩
    exact ⟨Heap.get?_modify now id f, fun none => Heap.modify_of_none none f⟩

/-- The handle of a dropped object does not address the object in its place. -/
theorem objects_last_cleared :
    let stale : ObjectId := ⟨0, 0⟩
    let heap := (({} : Heap).alloc {}).2.after [.clear, .alloc {}]
    heap.objects.size = 1 ∧ (heap.get? ⟨1, 0⟩).isSome ∧ heap.get? stale = none :=
  ⟨rfl, rfl,
    ((objects_last.2.2.2.2.2 {} (.alloc {}) [.clear, .alloc {}] ⟨0, 0⟩ rfl).2.2 (by decide)
      (by decide))⟩

end Lingo
