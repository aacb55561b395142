import Lingo.Proofs.Instances

/-!
# Invariants of frames

An interpreter may look at the machine as it goes: when a handler is called,
before each instruction of a handler and after its last one, and before the frame
of the handler is removed, however the handler has ended. Where it finds a
machine that is not as it should be, it does something else (`inspect`).

A `Frame.Invariant` holds of every frame that a handler starts in, and each edit
of a frame and each step of the interpreter keeps it.

* `Operation.unnoticed`: instructions make no difference between calls that look
  at the machine and calls that do not, as long as neither finds anything;
* `inspectedActivate_unnoticed`: nor does a handler and what it calls, by
  induction on the levels of calls that are left;
* `Frame.Invariant.inspected`: whoever looks for a frame without the invariant
  finds none, at whatever depth;
* `Frame.Invariant.afterVisits`: nor is there one between the visits of the host.
-/

namespace Lingo

open Machine
open Host (perform)

variable {α β : Type}

/-! ## Looking at the machine -/

namespace Machine

/-- Looks at the machine, and does something else if it is not as `P` says. -/
def inspect (P : Machine → Prop) [DecidablePred P] (other : Action Unit) : Action Unit := do
  if P (← get) then pure () else other

/-- Executes the running handler as `runFrame` does, and looks at the machine
before each instruction and after the last one. -/
def inspectedFrame (look : Action Unit) (c : Calls) (name : String) (limit : Nat) :
    Nat → Action Value
  | 0 => do
    look
    runFrame c name limit 0
  | remaining + 1 => do
    look
    match (← get).next? with
    | none => takeResult
    | some (frame, i) =>
      stepFrame c frame i
      inspectedFrame look c name limit remaining

/-- Runs a handler as `runHandler` does, and looks at the machine also when the
handler has ended. -/
def inspectedHandler (look : Action Unit) (c : Calls) (site : HandlerSite) (args : Array Value)
    (receiver : Value) : Action Value := do
  let call ← enterHandler (Frame.enter site args receiver)
  let limit := (← get).config.stepLimit
  let outcome ← sure (inspectedFrame look c site.name limit limit).run
  look
  leaveHandler call outcome
  liftExcept outcome

/-- Runs a handler that handles errors as `runErrorHandler` does. -/
def inspectedErrorHandler (look : Action Unit) (c : Calls) (site : HandlerSite)
    (args : Array Value) (receiver : Value) : Action Value := do
  if 0 < (← get).errorHandlers then
    report .debug .call ("skipping nested " ++ site.name)
    return .void
  else
    modify fun m => { m with errorHandlers := m.errorHandlers + 1 }
    let outcome ← sure (inspectedHandler look c site args receiver).run
    modify fun m => { m with errorHandlers := m.errorHandlers - 1 }
    liftExcept outcome

/-- Activates a handler as `activate` does, and looks at the machine in which it is
called. -/
def inspectedActivate (look : Action Unit) (remaining : Nat) (site : HandlerSite)
    (args : Array Value) (receiver : Value) : Action Value := do
  look
  let m ← get
  if m.stopped then return .void
  else if m.config.maxCallDepth ≤ m.depth then
    throw (.callStackOverflow site.name m.config.maxCallDepth)
  else
    match remaining with
    | 0 => throw (.callStackOverflow site.name m.config.maxCallDepth)
    | remaining + 1 =>
      let c := callsWith (inspectedActivate look remaining) m.maxHops
      if isErrorHandler site.name then inspectedErrorHandler look c site args receiver
      else inspectedHandler look c site args receiver

/-- The calls of a machine that is looked at as it goes. -/
def inspectedCalls (look : Action Unit) (m : Machine) : Calls :=
  callsWith (inspectedActivate look (m.config.maxCallDepth - m.depth)) m.maxHops

end Machine

theorem perform_inspect {P : Machine → Prop} [DecidablePred P] {m : Machine} (h : P m)
    (other : Action Unit) : perform (inspect P other) m = (.ok (), m) := by
  rw [inspect, perform_get_bind, if_pos h]
  rfl

/-! ## Invariants -/

/-- A property that frames have when a handler starts in them, and that nothing
takes away. -/
structure Frame.Invariant (P : Frame → Prop) : Prop where
  enter (site : HandlerSite) (args : Array Value) (receiver : Value) :
    P (Frame.enter site args receiver)
  advance {f : Frame} {i : Instruction} (next : f.current? = some i) (h : P f) : P f.advance
  edit {f f' : Frame} (change : f.Edit f') (h : P f) : P f'
  takeResult {f : Frame} (h : P f) : P f.takeResult.2

/-- The machine has these functions of the host, and its frames have the
property. -/
structure Conforms (functions : List (String × HostFunction)) (P : Frame → Prop) (m : Machine) :
    Prop where
  hosts : m.hosts = functions
  frames : ∀ f ∈ m.frames, P f

namespace Conforms

variable {functions : List (String × HostFunction)} {P : Frame → Prop} {m m₁ : Machine}

theorem of_same (h : Conforms functions P m) (hosts : m₁.hosts = m.hosts)
    (frames : m₁.frames = m.frames) : Conforms functions P m₁ :=
  ⟨hosts.trans h.hosts, frames ▸ h.frames⟩

/-- Where only the running handler's frame changes. -/
theorem of_top (h : Conforms functions P m) {top top' : Frame} {rest : List Frame}
    (hosts : m₁.hosts = m.hosts) (before : m.frames = top :: rest)
    (after : m₁.frames = top' :: rest) (keeps : P top → P top') : Conforms functions P m₁ := by
  have all := h.frames
  rw [before, List.forall_mem_cons] at all
  refine ⟨hosts.trans h.hosts, ?_⟩
  rw [after, List.forall_mem_cons]
  exact ⟨keeps all.1, all.2⟩

theorem edited (h : Conforms functions P m) (hP : Frame.Invariant P) (he : Edited m m₁) :
    Conforms functions P m₁ := by
  obtain ⟨hosts, same | ⟨top, top', rest, before, after, edit⟩⟩ := he
  · exact h.of_same hosts same
  · exact h.of_top hosts before after (hP.edit edit)

theorem untouched {u : Update α} (h : Conforms functions P m) (hu : Primitive False u) :
    Conforms functions P (u m).2 :=
  have steady : Steady False True m (u m).2 := hu.steady m
  h.of_same steady.hosts (steady.frames id)

theorem fetch (h : Conforms functions P m) (hP : Frame.Invariant P) {frame : Frame}
    {i : Instruction} (hn : m.next? = some (frame, i)) :
    Conforms functions P (Machine.fetch frame i m).2 := by
  obtain ⟨rest, log, events, before, he⟩ := fetch_frames hn
  rw [he]
  exact h.of_top rfl before rfl (hP.advance (next?_current hn))

theorem takeResult (h : Conforms functions P m) (hP : Frame.Invariant P) :
    Conforms functions P (Machine.takeResult m).2 := by
  unfold Machine.takeResult
  rw [modifyGet_apply]
  split
  · exact h
  · rename_i top rest before
    exact h.of_top rfl before rfl hP.takeResult

theorem enterHandler (h : Conforms functions P m) (hP : Frame.Invariant P) (site : HandlerSite)
    (args : Array Value) (receiver : Value) :
    Conforms functions P (Machine.enterHandler (Frame.enter site args receiver) m).2 := by
  obtain ⟨call, log, events, he, -⟩ := enterHandler_eq (Frame.enter site args receiver) m
  rw [he]
  exact ⟨h.hosts, List.forall_mem_cons.mpr ⟨hP.enter site args receiver, h.frames⟩⟩

theorem leaveHandler (h : Conforms functions P m) (call : CallInfo)
    (outcome : Except Fault Value) : Conforms functions P (Machine.leaveHandler call outcome m).2 := by
  obtain ⟨log, events, he, -⟩ := leaveHandler_eq call outcome m
  rw [he]
  exact ⟨h.hosts, fun f hf => h.frames f (List.mem_of_mem_tail hf)⟩

end Conforms

/-! ## What looks are not noticed -/

section

variable {functions : List (String × HostFunction)} {P : Frame → Prop}

/-- From machines whose frames have the property the second action does what the
first one does, and that leaves a machine of the kind. -/
def Unnoticed (functions : List (String × HostFunction)) (P : Frame → Prop) (a a' : Action α) :
    Prop :=
  ∀ m, Conforms functions P m →
    perform a' m = perform a m ∧ Conforms functions P (perform a m).2

/-- So are activations and calls that the host forwards. -/
structure UnnoticedCalls (functions : List (String × HostFunction)) (P : Frame → Prop)
    (c c' : Calls) : Prop where
  activate : ∀ site args receiver,
    Unnoticed functions P (c.activate site args receiver) (c'.activate site args receiver)
  reenter : ∀ name args, Unnoticed functions P (c.reenter name args) (c'.reenter name args)

namespace Unnoticed

variable {a a' : Action α} {f f' : α → Action β}

theorem pure (v : α) : Unnoticed functions P (pure v) (pure v) :=
  fun _ hm => ⟨rfl, hm⟩

theorem throw (fault : Fault) :
    Unnoticed functions P (throw fault : Action α) (throw fault) :=
  fun _ hm => ⟨rfl, hm⟩

theorem update {u : Update α} (keeps : ∀ m, Conforms functions P m → Conforms functions P (u m).2) :
    Unnoticed functions P (sure u) (sure u) :=
  fun m hm => ⟨rfl, keeps m hm⟩

theorem read {f f' : Machine → Action α} (h : ∀ m, Unnoticed functions P (f m) (f' m)) :
    Unnoticed functions P (get >>= f) (get >>= f') :=
  fun m => h m m

theorem bind (ha : Unnoticed functions P a a') (hf : ∀ v, Unnoticed functions P (f v) (f' v)) :
    Unnoticed functions P (a >>= f) (a' >>= f') := by
  intro m hm
  obtain ⟨same, left⟩ := ha m hm
  rcases he : perform a m with ⟨fault | v, m₁⟩
  · rw [he] at same left
    rw [perform_bind_error he, perform_bind_error same]
    exact ⟨rfl, left⟩
  · rw [he] at same left
    rw [perform_bind_ok he, perform_bind_ok same]
    exact hf v m₁ left

/-- An outcome that is kept for later. -/
theorem caught (h : Unnoticed functions P a a') :
    Unnoticed functions P (sure a.run) (sure a'.run) := by
  intro m hm
  obtain ⟨same, left⟩ := h m hm
  have same : a'.run m = a.run m := same
  rw [perform_sure, perform_sure, same]
  exact ⟨rfl, left⟩

theorem contained (h : Unnoticed functions P a a') (message : Fault → String) :
    Unnoticed functions P (sure (Machine.contained a message))
      (sure (Machine.contained a' message)) := by
  intro m hm
  obtain ⟨same, left⟩ := h m hm
  rcases he : perform a m with ⟨fault | v, m₁⟩
  · rw [he] at same left
    rw [perform_contained_error he, perform_contained_error same]
    exact ⟨rfl, left.of_same rfl rfl⟩
  · rw [he] at same left
    rw [perform_contained_ok he, perform_contained_ok same]
    exact ⟨rfl, left⟩

/-- A look at the machine that finds nothing. -/
theorem looked {look : Action Unit}
    (quiet : ∀ m, (∀ f ∈ m.frames, P f) → perform look m = (.ok (), m))
    (h : Unnoticed functions P a a') : Unnoticed functions P a (look >>= fun _ => a') := by
  intro m hm
  rw [perform_bind_ok (quiet m hm.frames)]
  exact h m hm

end Unnoticed

/-! ## Routines and operations -/

variable {c c' : Calls}

theorem Routine.unnoticed {H : Hosting} {call : Prop} {a : Calls → Action α}
    (h : Routine H False call a) (hc : UnnoticedCalls H.functions P c c') :
    Unnoticed H.functions P (a c) (a c') := by
  induction h with
  | pure v => exact .pure v
  | bind _ _ iha ihf => exact .bind iha ihf
  | read _ _ ih => exact fun m hm => ih m hm.hosts m hm
  | work h => exact .update fun m hm => hm.untouched h
  | write h cell key f => exact .update fun m hm => hm.untouched (.writeKey _ cell key f)
  | throw _ fault | fail _ _ fault => exact .throw fault
  | stop => exact .update fun m hm => hm.of_same rfl rfl
  | activate _ site args receiver => exact hc.activate site args receiver
  | reenter _ name args => exact hc.reenter name args
  | contain _ _ message ih => exact .contained ih message

theorem Operation.unnoticed {H : Hosting} {touch call : Prop} {a : Calls → Action α}
    (h : Operation H touch call a) (hP : Frame.Invariant P)
    (hc : UnnoticedCalls H.functions P c c') : Unnoticed H.functions P (a c) (a c') := by
  induction h with
  | aside h => exact h.unnoticed hc
  | edit _ _ edits => exact .update fun m hm => hm.edited hP (edits m)
  | bind _ _ iha ihf => exact .bind iha ihf
  | read _ _ ih => exact fun m hm => ih m hm.hosts m hm

theorem execute_unnoticed (hP : Frame.Invariant P) (hc : UnnoticedCalls functions P c c')
    (i : Instruction) : Unnoticed functions P (Step.execute c i) (Step.execute c' i) := by
  cases hi : i.opcode.isCall with
  | false => exact (Step.execute_operation (H := .free functions) hi).unnoticed hP hc
  | true => exact (Step.execute_call_operation (Hosting.free_open functions) hi).unnoticed hP hc

/-- A call that the host forwards is a call by name, by induction on how often it
forwards calls. -/
theorem callsWith_unnoticed (hP : Frame.Invariant P)
    {activate activate' : HandlerSite → Array Value → Value → Action Value}
    (acts : ∀ site args receiver,
      Unnoticed functions P (activate site args receiver) (activate' site args receiver))
    (hops : Nat) :
    UnnoticedCalls functions P (callsWith activate hops) (callsWith activate' hops) := by
  induction hops with
  | zero => exact ⟨acts, fun name args => .read fun m => .throw _⟩
  | succ hops ih =>
    refine ⟨acts, fun name args => ?_⟩
    have forwarded : Operation (.free functions) True True fun c => callHandler c name args :=
      callHandler_operation ((Hosting.free_open functions).serves name args) fun _ => trivial
    exact forwarded.unnoticed hP ih

/-! ## Frames and activations -/

variable {look : Action Unit} (hP : Frame.Invariant P)
  (quiet : ∀ m, (∀ f ∈ m.frames, P f) → perform look m = (.ok (), m))

include hP quiet

theorem inspectedFrame_unnoticed (hc : UnnoticedCalls functions P c c') (name : String)
    (limit remaining : Nat) :
    Unnoticed functions P (runFrame c name limit remaining)
      (inspectedFrame look c' name limit remaining) := by
  have ended : Unnoticed functions P (sure takeResult) (sure takeResult) :=
    .update fun m hm => hm.takeResult hP
  induction remaining with
  | zero =>
    refine .looked quiet (.read fun m => ?_)
    cases m.next? with
    | none => exact ended
    | some next => exact .throw _
  | succ remaining ih =>
    refine .looked quiet fun m hm => ?_
    rw [runFrame, perform_get_bind, perform_get_bind]
    cases hn : m.next? with
    | none => exact ended m hm
    | some next =>
      obtain ⟨frame, i⟩ := next
      exact (execute_unnoticed hP hc i).bind (fun _ => ih) _ (hm.fetch hP hn)

theorem inspectedHandler_unnoticed (hc : UnnoticedCalls functions P c c') (site : HandlerSite)
    (args : Array Value) (receiver : Value) :
    Unnoticed functions P (runHandler c site args receiver)
      (inspectedHandler look c' site args receiver) := by
  refine .bind (.update fun m hm => hm.enterHandler hP site args receiver) fun call =>
    .read fun m => .bind (.caught (inspectedFrame_unnoticed hP quiet hc site.name _ _)) fun outcome =>
      .looked quiet (.bind (.update fun m hm => hm.leaveHandler call outcome) fun _ => ?_)
  cases outcome with
  | ok v => exact .pure v
  | error fault => exact .throw fault

theorem inspectedErrorHandler_unnoticed (hc : UnnoticedCalls functions P c c') (site : HandlerSite)
    (args : Array Value) (receiver : Value) :
    Unnoticed functions P (runErrorHandler c site args receiver)
      (inspectedErrorHandler look c' site args receiver) := by
  refine .read fun m => ?_
  split
  · exact .bind (.update fun m hm => hm.of_same rfl rfl) fun _ => .pure _
  · refine .bind (.update fun m hm => hm.of_same rfl rfl) fun _ =>
      .bind (.caught (inspectedHandler_unnoticed hP quiet hc site args receiver)) fun outcome =>
        .bind (.update fun m hm => hm.of_same rfl rfl) fun _ => ?_
    cases outcome with
    | ok v => exact .pure v
    | error fault => exact .throw fault

theorem inspectedActivate_unnoticed (remaining : Nat) (site : HandlerSite) (args : Array Value)
    (receiver : Value) :
    Unnoticed functions P (activate remaining site args receiver)
      (inspectedActivate look remaining site args receiver) := by
  induction remaining generalizing site args receiver with
  | zero =>
    unfold activate inspectedActivate
    refine .looked quiet (.read fun m => ?_)
    split
    · exact .pure _
    · split <;> exact .throw _
  | succ remaining ih =>
    unfold activate inspectedActivate
    refine .looked quiet (.read fun m => ?_)
    have calls := callsWith_unnoticed hP ih m.maxHops
    split
    · exact .pure _
    split
    · exact .throw _
    dsimp only
    split
    · exact inspectedErrorHandler_unnoticed hP quiet calls site args receiver
    · exact inspectedHandler_unnoticed hP quiet calls site args receiver

end

/-! ## The host -/

namespace Frame.Invariant

variable {P : Frame → Prop} {m : Machine}

/-- Whatever the host asks of a machine whose frames have the invariant, nobody who
looks at it as it goes finds a frame without it. -/
theorem inspected (hP : Frame.Invariant P) {look : Action Unit}
    (quiet : ∀ m, (∀ f ∈ m.frames, P f) → perform look m = (.ok (), m)) (entry : Entry)
    (start : ∀ f ∈ m.frames, P f) :
    perform (entry.body (m.inspectedCalls look)) m = perform entry.action m ∧
      ∀ f ∈ (perform entry.action m).2.frames, P f := by
  have calls : UnnoticedCalls m.hosts P m.calls (m.inspectedCalls look) :=
    callsWith_unnoticed hP (inspectedActivate_unnoticed hP quiet _) m.maxHops
  have body := entry.body_operation (Hosting.free_open m.hosts)
  rw [entry.perform_action]
  obtain ⟨same, left⟩ := body.unnoticed hP calls m ⟨rfl, start⟩
  exact ⟨same, left.frames⟩

theorem afterVisits (hP : Frame.Invariant P) (visits : List Visit) (start : ∀ f ∈ m.frames, P f) :
    ∀ f ∈ (Lingo.afterVisits visits m).frames, P f := by
  induction visits generalizing m with
  | nil => exact start
  | cons visit visits ih =>
    refine ih (m := visit.take m) ?_
    by_cases runs : visit.Runs
    · cases visit with
      | enter entry =>
        have idle : ∀ m, (∀ f ∈ m.frames, P f) → perform (pure ()) m = (.ok (), m) := fun _ _ => rfl
        exact (hP.inspected idle entry start).2
      | _ => exact runs.elim
    by_cases empties : visit = .reset
    · rw [empties]
      intro f hf
      cases hf
    · rwa [(visit.take_frames runs empties m).1]

end Frame.Invariant

end Lingo
