import Lingo.Proofs.Isolation

/-!
# Activations

The interpreter runs a handler in a frame of its own, instruction by
instruction, and removes the frame however the handler ends.

* `stepFrame_ended`, `stepFrame_ready`: what one instruction keeps;
* `runFrame_completed`: what all instructions of a handler keep, by induction on
  how many are left;
* `activate_completed`: what an activation keeps, by induction on the levels of
  calls that are left;
* `call_isolates_caller`: what follows for the callers of handlers.

`Completed` adds to the end of a sound action that a stopped machine yields
void. It holds of a handler since its frame has no result before it returns, and
the instruction that stops the machine is not one that returns (`Ready`).
-/

namespace Lingo

open Machine
open Host (perform)

/-- A handler that starts from the machine `m` ends with `e`. -/
structure Completed (touch : Prop) (m : Machine) (e : Except Fault Value × Machine) : Prop where
  ended : Ended touch True m e
  void : ∀ v, e.1 = .ok v → e.2.stopped = true → v = .void

/-- The running handler has a result only if it has returned, and none if the
machine is stopped. -/
structure Ready (m : Machine) : Prop where
  idle : ∀ f ∈ m.frames.head?, f.Idle
  stopped : m.stopped = true → ∀ f ∈ m.frames.head?, f.result = .void

variable {m : Machine}

/-! ## One instruction -/

theorem next?_running {m : Machine} {frame : Frame} {i : Instruction}
    (h : m.next? = some (frame, i)) :
    m.stopped = false ∧ ∃ rest, m.frames = frame :: rest ∧ frame.returned = false := by
  unfold next? at h
  split at h
  · cases h
  · rename_i hs
    refine ⟨by simpa using hs, ?_⟩
    split at h
    · cases h
    · rename_i top rest hm
      split at h
      · cases h
      · rename_i hr
        obtain ⟨_, _, he⟩ := Option.map_eq_some_iff.mp h
        obtain ⟨rfl, -⟩ := Prod.mk.inj he
        exact ⟨rest, hm, by simpa using hr⟩

theorem next?_current {m : Machine} {frame : Frame} {i : Instruction}
    (h : m.next? = some (frame, i)) : frame.current? = some i := by
  unfold next? at h
  split at h
  · cases h
  · split at h
    · cases h
    · split at h
      · cases h
      · obtain ⟨_, current, same⟩ := Option.map_eq_some_iff.mp h
        cases same
        exact current

theorem next?_stopped {m : Machine} (h : m.stopped = true) : m.next? = none := by
  rw [next?, if_pos h]

theorem noteInstruction_noted (index : Nat) (i : Instruction) (stack : List Value) (m : Machine) :
    Noted (if m.tracer = some .record then [i] else []) m (noteInstruction index i stack m).2 :=
  notify_noted _ _ _ m

theorem fetch_eq {m : Machine} {frame : Frame} {rest : List Frame} (hm : m.frames = frame :: rest)
    (i : Instruction) :
    (fetch frame i m).2 =
      (noteInstruction frame.cursor i frame.stack { m with frames := frame.advance :: rest }).2 := by
  show (noteInstruction _ _ _ (m.onTop Frame.advance)).2 = _
  unfold Machine.onTop
  rw [hm]

section

variable {frame : Frame} {i : Instruction}

/-- The frames and the tracer's events are all that a fetch changes. -/
theorem fetch_frames (hn : m.next? = some (frame, i)) :
    ∃ rest log events, m.frames = frame :: rest ∧
      (fetch frame i m).2 = { m with frames := frame.advance :: rest, log, events } := by
  obtain ⟨-, rest, hm, -⟩ := next?_running hn
  obtain ⟨log, events, he, -⟩ := noteInstruction_noted frame.cursor i frame.stack
    { m with frames := frame.advance :: rest }
  exact ⟨rest, log, events, hm, (fetch_eq hm i).trans he⟩

theorem fetch_steady (hn : m.next? = some (frame, i)) :
    Steady True True m (fetch frame i m).2 := by
  obtain ⟨rest, log, events, hm, he⟩ := fetch_frames hn
  have advanced : Steady True True m { m with frames := frame.advance :: rest } :=
    .of_top trivial hm id
  rw [he]
  exact advanced.trans (.of_eq rfl rfl rfl rfl rfl rfl rfl fun h => absurd trivial h)

theorem fetch_stopped (hn : m.next? = some (frame, i)) :
    (fetch frame i m).2.stopped = false := by
  obtain ⟨rest, log, events, -, he⟩ := fetch_frames hn
  rw [he]
  exact (next?_running hn).1

theorem perform_stepFrame (c : Calls) (frame : Frame) (i : Instruction) (m : Machine) :
    perform (stepFrame c frame i) m = perform (Step.execute c i) (fetch frame i m).2 := rfl

variable {c : Calls} (hc : SoundCalls c)

include hc

/-- An instruction of a running machine. -/
theorem execute_ended (i : Instruction) (hosts : m.hosts = []) (running : m.stopped = false) :
    Ended True True m (perform (Step.execute c i) m) := by
  cases hi : i.opcode.isCall with
  | false => exact ((Step.execute_routine hi).sound hc m hosts).of_running running
  | true => exact (Step.execute_call_routine Hosting.none_open hi).sound hc m hosts

theorem stepFrame_ended (hosts : m.hosts = []) (hn : m.next? = some (frame, i)) :
    Ended True True m (perform (stepFrame c frame i) m) := by
  have hs := fetch_steady hn
  have fetched : Ended True True m (.ok (), (fetch frame i m).2) := .ok hs ()
  exact fetched.trans (execute_ended hc i (hs.hosts.trans hosts) (fetch_stopped hn))

/-- Where an instruction stops the machine, the handler has no result. -/
theorem stepFrame_ready (hosts : m.hosts = []) (hn : m.next? = some (frame, i)) (h : Ready m) :
    Ready (perform (stepFrame c frame i) m).2 := by
  have hs := fetch_steady hn
  have running := fetch_stopped hn
  refine ⟨(stepFrame_ended hc hosts hn).steady.idle h.idle, fun stopped => ?_⟩
  rw [perform_stepFrame] at stopped ⊢
  cases hi : i.opcode.isCall with
  | false =>
    -- Only calls stop a machine.
    have hr := ((Step.execute_routine hi).sound hc _ (hs.hosts.trans hosts)).steady.running id
    rw [hr, running] at stopped
    cases stopped
  | true =>
    obtain ⟨-, _, -, returned⟩ := next?_running hn
    obtain ⟨rest, log, events, hm, he⟩ := fetch_frames hn
    obtain ⟨f', hf⟩ := Step.execute_call_isolated hc hi (hs.hosts.trans hosts)
      (show (fetch frame i m).2.frames = frame.advance :: rest by rw [he])
    have untouched := hf.untouched fun hb => by
      rw [(hf.finished hb).2, running] at stopped
      cases stopped
    rw [hf.frames]
    rintro _ ⟨⟩
    rw [untouched.2]
    exact h.idle frame (by rw [hm]; rfl) returned

end

/-! ## All instructions of a handler -/

section

variable {c : Calls} {name : String} {limit : Nat} {frame : Frame} {i : Instruction}

theorem runFrame_done (hn : m.next? = none) (remaining : Nat) :
    perform (runFrame c name limit remaining) m = (.ok (takeResult m).1, (takeResult m).2) := by
  cases remaining <;> rw [runFrame, perform_get_bind, hn] <;> exact perform_sure _ m

theorem runFrame_exhausted (hn : m.next? = some (frame, i)) :
    perform (runFrame c name limit 0) m =
      (.error (.stepLimitExceeded name i.offset limit), m) := by
  rw [runFrame, perform_get_bind, hn]
  exact perform_throw _ m

theorem runFrame_step (hn : m.next? = some (frame, i)) (remaining : Nat) :
    perform (runFrame c name limit (remaining + 1)) m =
      perform (stepFrame c frame i >>= fun _ => runFrame c name limit remaining) m := by
  rw [runFrame, perform_get_bind, hn]

end

theorem takeResult_steady (m : Machine) : Steady True True m (takeResult m).2 := by
  unfold Machine.takeResult
  rw [modifyGet_apply]
  split
  · exact .refl m
  · rename_i f rest hm
    exact .of_top trivial hm fun _ _ => rfl

theorem takeResult_completed (h : Ready m) :
    Completed True m (.ok (takeResult m).1, (takeResult m).2) := by
  refine ⟨.ok (takeResult_steady m) _, fun v hv hs => ?_⟩
  cases hv
  have stopped := h.stopped
  unfold Machine.takeResult at hs ⊢
  rw [modifyGet_apply] at hs ⊢
  split
  · rfl
  · rename_i f rest hm
    rw [hm] at hs stopped
    exact stopped hs f rfl

section

variable {c : Calls} (hc : SoundCalls c)

include hc

theorem runFrame_completed (name : String) (limit remaining : Nat) (m : Machine)
    (hosts : m.hosts = []) (h : Ready m) :
    Completed True m (perform (runFrame c name limit remaining) m) := by
  induction remaining generalizing m with
  | zero =>
    cases hn : m.next? with
    | none =>
      rw [runFrame_done hn]
      exact takeResult_completed h
    | some next =>
      rw [runFrame_exhausted hn]
      exact ⟨⟨.refl m, fun _ _ _ => (next?_running hn).1⟩, fun _ hv => nomatch hv⟩
  | succ remaining ih =>
    cases hn : m.next? with
    | none =>
      rw [runFrame_done hn]
      exact takeResult_completed h
    | some next =>
      obtain ⟨frame, i⟩ := next
      have step := stepFrame_ended hc hosts hn
      have ready := stepFrame_ready hc hosts hn h
      rw [runFrame_step hn]
      rcases he : perform (stepFrame c frame i) m with ⟨fault | u, m₁⟩
      · rw [perform_bind_error he]
        rw [he] at step
        exact ⟨⟨step.steady, fun _ _ _ => step.fault trivial fault rfl⟩, fun _ hv => nomatch hv⟩
      · rw [perform_bind_ok he]
        rw [he] at step ready
        have later := ih m₁ (step.steady.hosts.trans hosts) ready
        exact ⟨step.trans later.ended, later.void⟩

end

/-! ## Frames of handlers -/

/-- A handler runs in its frame between its start and its end. -/
theorem perform_runHandler {c : Calls} {site : HandlerSite} {args : Array Value} {receiver : Value}
    {m m₁ : Machine} {call : CallInfo} {e : Except Fault Value × Machine}
    (hs : enterHandler (Frame.enter site args receiver) m = (call, m₁))
    (he : perform (runFrame c site.name m₁.config.stepLimit m₁.config.stepLimit) m₁ = e) :
    perform (runHandler c site args receiver) m = (e.1, (leaveHandler call e.1 e.2).2) := by
  have entered := perform_sure (enterHandler (Frame.enter site args receiver)) m
  rw [hs] at entered
  have ran : perform (sure (runFrame c site.name m₁.config.stepLimit m₁.config.stepLimit).run) m₁ =
      (.ok e.1, e.2) := by
    rw [← he]
    exact perform_sure _ m₁
  refine (perform_bind_ok entered _).trans ((perform_get_bind _ _).trans ?_)
  refine (perform_bind_ok ran _).trans ((perform_sure_bind _ _ _).trans ?_)
  cases e.1 <;> rfl

theorem noteEnter_noted (call : CallInfo) (m : Machine) : Noted [] m (noteEnter call m).2 :=
  notify_noted_nil (fun _ => rfl) _ _ m

theorem enterHandler_eq (frame : Frame) (m : Machine) :
    ∃ call log events,
      enterHandler frame m = (call, { m with frames := frame :: m.frames, log, events }) ∧
      (enterHandler frame m).2.recorded = m.recorded := by
  let m₁ := (pushFrame frame m).2
  obtain ⟨log, events, he, hr⟩ := noteEnter_noted (m₁.callInfo frame)
    (report .trace .call ("enter " ++ frame.site.name) [depthField m₁.depth] m₁).2
  exact ⟨m₁.callInfo frame, log, events, congrArg (Prod.mk _) he, hr⟩

theorem noteEnd_noted (call : CallInfo) (outcome : Except Fault Value) (m : Machine) :
    Noted [] m (noteEnd call outcome m).2 := by
  cases outcome with
  | ok v => exact notify_noted_nil (fun _ => rfl) _ _ m
  | error fault => exact notify_noted_nil (fun _ => rfl) _ _ m

theorem leaveHandler_eq (call : CallInfo) (outcome : Except Fault Value) (m : Machine) :
    ∃ log events, (leaveHandler call outcome m).2 = { m with frames := m.frames.tail, log, events } ∧
      (leaveHandler call outcome m).2.recorded = m.recorded := by
  obtain ⟨log, events, he, hr⟩ := noteEnd_noted call outcome m
  rw [he] at hr
  rw [leaveHandler, update_bind_apply, he]
  exact ⟨_, events, rfl, hr⟩

/-- A frame that is pushed and popped again. -/
theorem Steady.bracket {frame : Frame} {log log' : List LogEntry} {events events' : List TraceEvent}
    {m m₁ : Machine}
    (h : Steady True True { m with frames := frame :: m.frames, log, events } m₁) :
    Steady False True m { m₁ with frames := m₁.frames.tail, log := log', events := events' } where
  hosts := h.hosts
  maxCallDepth := h.maxCallDepth
  stepLimit := h.stepLimit
  tracer := h.tracer
  errorHandlers := h.errorHandlers
  depth := congrArg List.length h.below
  below := congrArg List.tail h.below
  frames _ := h.below
  idle hi := by rwa [show m₁.frames.tail = m.frames from h.below]
  stopped := h.stopped
  running n := absurd trivial n
  recorded n := absurd trivial n

section

variable {c : Calls} (hc : SoundCalls c)

include hc

theorem runHandler_completed (site : HandlerSite) (args : Array Value) (receiver : Value)
    (hosts : m.hosts = []) (running : m.stopped = false) :
    Completed False m (perform (runHandler c site args receiver) m) := by
  obtain ⟨call, log, events, hs, -⟩ := enterHandler_eq (Frame.enter site args receiver) m
  let m₁ : Machine := { m with frames := Frame.enter site args receiver :: m.frames, log, events }
  have ready : Ready m₁ := by
    refine ⟨?_, fun stopped => ?_⟩
    · rintro _ ⟨⟩
      exact Frame.enter_idle site args receiver
    · rw [show m.stopped = true from stopped] at running
      cases running
  have ran := runFrame_completed hc site.name m.config.stepLimit m.config.stepLimit m₁ hosts ready
  rcases he : perform (runFrame c site.name m.config.stepLimit m.config.stepLimit) m₁ with
    ⟨outcome, m₂⟩
  rw [he] at ran
  rw [perform_runHandler hs he]
  obtain ⟨log', events', hl, -⟩ := leaveHandler_eq call outcome m₂
  rw [hl]
  exact ⟨⟨ran.ended.steady.bracket, ran.ended.fault⟩, ran.void⟩

end

/-! ## Handlers that handle errors -/

theorem perform_runErrorHandler {c : Calls} {site : HandlerSite} {args : Array Value}
    {receiver : Value} {m₁ : Machine} {outcome : Except Fault Value} (h : m.errorHandlers = 0)
    (he : perform (runHandler c site args receiver) { m with errorHandlers := 1 } = (outcome, m₁)) :
    perform (runErrorHandler c site args receiver) m =
      (outcome, { m₁ with errorHandlers := m₁.errorHandlers - 1 }) := by
  have ran := perform_sure (runHandler c site args receiver).run { m with errorHandlers := 1 }
  rw [show (runHandler c site args receiver).run { m with errorHandlers := 1 } = (outcome, m₁)
    from he] at ran
  refine (perform_get_bind _ m).trans ?_
  rw [if_neg (by omega)]
  refine (perform_sure_bind _ _ m).trans ?_
  show perform _ { m with errorHandlers := m.errorHandlers + 1 } = _
  rw [h]
  refine (perform_bind_ok ran _).trans ((perform_sure_bind _ _ _).trans ?_)
  cases outcome <;> rfl

theorem perform_runErrorHandler_nested (c : Calls) (site : HandlerSite) (args : Array Value)
    (receiver : Value) (h : 0 < m.errorHandlers) :
    perform (runErrorHandler c site args receiver) m =
      (.ok .void, (report .debug .call ("skipping nested " ++ site.name) [] m).2) := by
  refine (perform_get_bind _ m).trans ?_
  rw [if_pos h]
  rfl

/-- An error handler that is counted and discounted again. -/
theorem Steady.handling {m m₁ : Machine} (hm : m.errorHandlers = 0)
    (h : Steady False True { m with errorHandlers := 1 } m₁) :
    Steady False True m { m₁ with errorHandlers := m₁.errorHandlers - 1 } :=
  { h with
    errorHandlers := by
      have counted : m₁.errorHandlers = 1 := h.errorHandlers
      show m₁.errorHandlers - 1 = m.errorHandlers
      rw [counted, hm] }

section

variable {c : Calls} (hc : SoundCalls c)

include hc

theorem runErrorHandler_completed (site : HandlerSite) (args : Array Value) (receiver : Value)
    (hosts : m.hosts = []) (running : m.stopped = false) :
    Completed False m (perform (runErrorHandler c site args receiver) m) := by
  rcases Nat.eq_zero_or_pos m.errorHandlers with hm | hm
  · have ran := runHandler_completed (m := { m with errorHandlers := 1 }) hc site args receiver
      hosts running
    rcases he : perform (runHandler c site args receiver) { m with errorHandlers := 1 } with
      ⟨outcome, m₁⟩
    rw [he] at ran
    rw [perform_runErrorHandler hm he]
    exact ⟨⟨ran.ended.steady.handling hm, ran.ended.fault⟩, ran.void⟩
  · rw [perform_runErrorHandler_nested c site args receiver hm]
    refine ⟨.ok ((report_noted _ _ _ _ m).steady fun _ => rfl) _, fun v hv _ => ?_⟩
    cases hv
    rfl

end

/-! ## Activations -/

/-- Activations that run handlers. -/
theorem activate_succ (remaining : Nat) (site : HandlerSite) (args : Array Value) (receiver : Value)
    (running : m.stopped = false) (shallow : m.depth < m.config.maxCallDepth) :
    perform (activate (remaining + 1) site args receiver) m =
      perform ((if isErrorHandler site.name then runErrorHandler else runHandler)
        (callsWith (activate remaining) m.maxHops) site args receiver) m := by
  rw [activate, perform_get_bind, if_neg (by simp [running]), if_neg (by omega)]
  cases isErrorHandler site.name <;> rfl

/-- A stopped machine runs no handler. -/
theorem activate_stopped (remaining : Nat) (site : HandlerSite) (args : Array Value)
    (receiver : Value) (stopped : m.stopped = true) :
    perform (activate remaining site args receiver) m = (.ok .void, m) := by
  unfold activate
  rw [perform_get_bind, if_pos stopped, perform_pure]

/-- Where too many handlers are active, no other is run. -/
theorem activate_overflow {remaining : Nat} (site : HandlerSite) (args : Array Value)
    (receiver : Value) (running : m.stopped = false)
    (deep : remaining = 0 ∨ m.config.maxCallDepth ≤ m.depth) :
    perform (activate remaining site args receiver) m =
      (.error (.callStackOverflow site.name m.config.maxCallDepth), m) := by
  unfold activate
  rw [perform_get_bind, if_neg (by simp [running])]
  split
  · exact perform_throw _ m
  · rw [deep.resolve_right ‹_›]
    exact perform_throw _ m

theorem activate_refused {remaining : Nat} (site : HandlerSite) (args : Array Value)
    (receiver : Value)
    (h : m.stopped = true ∨ remaining = 0 ∨ m.config.maxCallDepth ≤ m.depth) :
    Completed False m (perform (activate remaining site args receiver) m) := by
  cases stopped : m.stopped with
  | true =>
    rw [activate_stopped _ site args receiver stopped]
    exact ⟨.refl _ m, fun _ hv _ => by cases hv; rfl⟩
  | false =>
    rw [activate_overflow site args receiver stopped (h.resolve_left (by simp [stopped]))]
    exact ⟨⟨.refl m, fun _ _ _ => stopped⟩, fun _ hv => nomatch hv⟩

theorem activate_completed (remaining : Nat) (site : HandlerSite) (args : Array Value)
    (receiver : Value) (m : Machine) (hosts : m.hosts = []) :
    Completed False m (perform (activate remaining site args receiver) m) := by
  induction remaining generalizing site args receiver m with
  | zero => exact activate_refused site args receiver (.inr (.inl rfl))
  | succ remaining ih =>
    by_cases h : m.stopped = true ∨ m.config.maxCallDepth ≤ m.depth
    · exact activate_refused site args receiver (h.imp_right .inr)
    · obtain ⟨running, shallow⟩ := not_or.mp h
      rw [Bool.not_eq_true] at running
      have hc : SoundCalls (callsWith (activate remaining) m.maxHops) :=
        fun site args receiver m₁ hosts₁ => (ih site args receiver m₁ hosts₁).ended
      rw [activate_succ remaining site args receiver running (by omega)]
      split
      · exact runErrorHandler_completed hc site args receiver hosts running
      · exact runHandler_completed hc site args receiver hosts running

/-- The ways back into the interpreter are sound. -/
theorem callsWith_sound (remaining hops : Nat) : SoundCalls (callsWith (activate remaining) hops) :=
  fun site args receiver m hosts => (activate_completed remaining site args receiver m hosts).ended

/-! ## Callers of handlers -/

/-- Whatever a call instruction runs, and however it ends, the caller keeps its
frame but for the operand stack, and for its own result if the call comes to
`return`. -/
theorem call_isolates_caller (remaining hops : Nat) {i : Instruction}
    (hi : i.opcode.isCall = true) {m : Machine} (hosts : m.hosts = []) {f : Frame}
    {rest : List Frame} (hm : m.frames = f :: rest) :
    ∃ f', Isolated m i f rest
      (perform (Step.execute (callsWith (activate remaining) hops) i) m) f' :=
  Step.execute_call_isolated (callsWith_sound remaining hops) hi hosts hm

/-- A handler `ask` that returns what the handler `answer` of its script
returns. -/
def askSite : HandlerSite where
  library := { names := ⟨#["ask", "answer", "return"]⟩ }
  script :=
    { member := 1
      kind := .movie
      handlers := #[
        { nameId := 0
          code := #[⟨0, .pushArgList, 0x43, 0⟩, ⟨2, .localCall, 0x56, 1⟩,
            ⟨4, .pushArgListNoRet, 0x42, 1⟩, ⟨6, .extCall, 0x57, 2⟩] },
        { nameId := 1
          code := #[⟨0, .pushInt8, 0x41, 7⟩, ⟨2, .pushArgListNoRet, 0x42, 1⟩,
            ⟨4, .extCall, 0x57, 2⟩] }] }
  index := 0
  inRange := by decide

/-- The frame of `ask` when it calls `answer`. -/
def askFrame : Frame :=
  { Frame.enter askSite #[] .void with stack := [.argList 0], cursor := 2 }

theorem call_isolates_caller_ask :
    ∃ f', Isolated { frames := [askFrame] } ⟨2, .localCall, 0x56, 1⟩ askFrame []
      (perform (Step.execute (callsWith (activate 49) 1) ⟨2, .localCall, 0x56, 1⟩)
        { frames := [askFrame] }) f' :=
  call_isolates_caller 49 1 rfl rfl rfl

end Lingo
