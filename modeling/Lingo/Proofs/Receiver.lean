import Lingo.Proofs.LocalCall
import Lingo.Proofs.Origin
import Lingo.Proofs.Termination

/-!
# Receivers and first arguments

A handler that is called on a receiver finds it among its arguments, as the first
of them (`LedBy`). All calls of handlers put it there except one: a local call
keeps the receiver of its caller, but its arguments are those of its argument
list. `Machine.Admits` says how a handler may start, and `receiver_leads` that
none starts otherwise: an interpreter that does something else with such a
handler does the same.

* `Calls.led`: operations other than a local call make no difference between
  their calls and those that run only handlers led by their receivers;
* `checkedActivate`: the interpreter that checks how each handler starts;
* `checkedActivate_eq`: where it starts with a handler that it admits, it comes to
  no other, by induction on the levels of calls that are left;
* `local_call_drops_receiver`: a method that calls another by a local call
  without arguments leaves it without the receiver among its arguments.
-/

namespace Lingo

open Machine
open Host (perform)

/-- There is no receiver, or it is the first argument. -/
def LedBy (args : Array Value) (receiver : Value) : Prop :=
  receiver = .void ∨ args[0]? = some receiver

instance (args : Array Value) (receiver : Value) : Decidable (LedBy args receiver) :=
  inferInstanceAs (Decidable (_ ∨ _))

theorem ledBy_void (args : Array Value) : LedBy args .void :=
  .inl rfl

theorem ledBy_prepend (args : Array Value) (receiver : Value) :
    LedBy (#[receiver] ++ args) receiver :=
  .inr (by simp)

/-- The calls that run only handlers that are led by their receivers. -/
def Calls.led (c : Calls) : Calls where
  activate site args receiver :=
    if LedBy args receiver then c.activate site args receiver else pure .void
  reenter := c.reenter

theorem Calls.led_activate (c : Calls) (site : HandlerSite) {args : Array Value} {receiver : Value}
    (h : LedBy args receiver) : c.led.activate site args receiver = c.activate site args receiver :=
  if_pos h

/-! ## Operations that put the receiver first -/

section

variable (c : Calls)

@[simp] theorem execute_led (site : HandlerSite) (args : Array Value) (receiver? : Option Value) :
    execute c.led site args receiver? = execute c site args receiver? := by
  cases receiver? with
  | none => exact c.led_activate site (ledBy_void args)
  | some receiver => exact c.led_activate site (ledBy_prepend args receiver)

@[simp] theorem executeContained_led (site : HandlerSite) (args : Array Value) (receiver : Value) :
    executeContained c.led site args receiver = executeContained c site args receiver := by
  simp only [executeContained, execute_led]

@[simp] theorem callHost_led (args : Array Value) (f : HostFunction) :
    callHost c.led args f = callHost c args f := by
  cases f <;> rfl

@[simp] theorem instantiate_led (ref : ScriptRef) (args : Array Value) :
    instantiate c.led ref args = instantiate c ref args := by
  simp only [instantiate, execute_led]

@[simp] theorem newObject_led (args : Array Value) : newObject c.led args = newObject c args := by
  simp only [newObject, instantiate_led]

@[simp] theorem construct_led (args : Array Value) : construct c.led args = construct c args := by
  simp only [construct, callHost_led, newObject_led]

@[simp] theorem linkAncestors_led (names : List Value) (first previous : Option ObjectId) :
    ObjectMethod.linkAncestors c.led names first previous =
      ObjectMethod.linkAncestors c names first previous := by
  induction names generalizing first previous with
  | nil => rfl
  | cons name rest ih => simp only [ObjectMethod.linkAncestors, construct_led, ih]

@[simp] theorem buildAncestors_led (id : ObjectId) (names : List Value) :
    ObjectMethod.buildAncestors c.led id names = ObjectMethod.buildAncestors c id names := by
  simp only [ObjectMethod.buildAncestors, linkAncestors_led]

@[simp] theorem objectMethod_led (id : ObjectId) (args : Array Value) (method : ObjectMethod) :
    method.run c.led id args = method.run c id args := by
  cases method <;> simp only [ObjectMethod.run, buildAncestors_led]

@[simp] theorem callObject_led (id : ObjectId) (name : String) (args : Array Value) :
    callObject c.led id name args = callObject c id name args := by
  simp only [callObject, objectMethod_led, executeContained_led]

@[simp] theorem callCollection_led (name : String) (args : Array Value) :
    callCollection c.led name args = callCollection c name args := by
  simp only [callCollection, callObject_led]

@[simp] theorem callEach_led (name : String) (args : Array Value) (ids : List ObjectId)
    (result : Value) : callEach c.led name args ids result = callEach c name args ids result := by
  induction ids generalizing result with
  | nil => rfl
  | cons id rest ih => simp only [callEach, executeContained_led, ih]

@[simp] theorem callOn_led (args : Array Value) : callOn c.led args = callOn c args := by
  simp only [callOn, executeContained_led, callEach_led]

@[simp] theorem callAncestors_led (name : String) (args : Array Value) (ids : List ObjectId)
    (result : Value) :
    callAncestors c.led name args ids result = callAncestors c name args ids result := by
  induction ids generalizing result with
  | nil => rfl
  | cons id rest ih => simp only [callAncestors, execute_led, ih]

@[simp] theorem callBuiltin_led (args : Array Value) (b : Builtin) :
    callBuiltin c.led args b = callBuiltin c args b := by
  cases b <;> simp only [callBuiltin, callCollection_led, callOn_led, callAncestorOn,
    callAncestors_led, newObject_led]

@[simp] theorem invoke_led (name : String) (args : Array Value) :
    invoke c.led name args = invoke c name args := by
  simp only [invoke, callHost_led, callBuiltin_led]

@[simp] theorem callHandler_led (name : String) (args : Array Value) :
    callHandler c.led name args = callHandler c name args := by
  simp only [callHandler, invoke_led, execute_led]

@[simp] theorem callHandlerOn_led (name : String) (args : Array Value) (receiver : Value) :
    callHandlerOn c.led name args receiver = callHandlerOn c name args receiver := by
  simp only [callHandlerOn, execute_led]

@[simp] theorem callMethod_led (target : Value) (name : String) (args : Array Value) :
    callMethod c.led target name args = callMethod c target name args := by
  simp only [callMethod, callObject_led, construct_led, callHandlerOn_led, invoke_led]

theorem makeObject_led (name : String) (args : Array Value) :
    Step.makeObject c.led name args = Step.makeObject c name args := by
  simp only [Step.makeObject, construct_led]

/-- All call instructions but local calls. -/
theorem callee_led {i : Instruction} (h : i.opcode ≠ .localCall) (args : Array Value) :
    Step.callee c.led i args = Step.callee c i args := by
  unfold Step.callee
  split
  · exact absurd ‹_› h
  all_goals simp only [callHandler_led, callMethod_led, makeObject_led]

theorem stepExecute_led {i : Instruction} (h : i.opcode ≠ .localCall) :
    Step.execute c.led i = Step.execute c i := by
  cases hi : i.opcode.isCall with
  | true =>
    rw [Step.execute_call hi, Step.execute_call hi]
    exact congrArg Step.callWith (funext (callee_led c h))
  | false =>
    unfold Step.execute
    cases ho : i.opcode <;> simp only [ho, Opcode.isCall, Bool.true_eq_false] at hi <;> rfl

/-- What the host may ask for, other than to activate a handler with whatever
arguments and receiver. -/
theorem body_led {entry : Entry}
    (h : ∀ site args receiver, entry = .activate site args receiver → LedBy args receiver) :
    entry.body c.led = entry.body c := by
  cases entry with
  | call name args => exact callHandler_led c name args
  | callOn name args receiver => exact callHandlerOn_led c name args receiver
  | run site args receiver? => exact execute_led c site args receiver?
  | runContained site args receiver => exact congrArg sure (executeContained_led c site args receiver)
  | callBuiltin name args => exact invoke_led c name args
  | callMethod target name args => exact callMethod_led c target name args
  | activate site args receiver => exact c.led_activate site (h site args receiver rfl)

end

/-! ## How handlers start -/

/-- The frame has just come to a local call, and the handler is one of its script
and keeps its receiver. -/
def Frame.HandsOn (caller : Frame) (site : HandlerSite) (receiver : Value) : Prop :=
  receiver = caller.receiver ∧ site.library = caller.library ∧ site.script = caller.script ∧
    (caller.handler.code[caller.cursor - 1]?).map Instruction.opcode = some .localCall

instance (caller : Frame) (site : HandlerSite) (receiver : Value) :
    Decidable (caller.HandsOn site receiver) :=
  inferInstanceAs (Decidable (_ ∧ _ ∧ _ ∧ _))

/-- How a handler may start: led by its receiver, or by a local call that hands
the receiver on. -/
def Machine.Admits (m : Machine) (site : HandlerSite) (args : Array Value) (receiver : Value) :
    Prop :=
  LedBy args receiver ∨ ∃ caller ∈ m.frames.head?, caller.HandsOn site receiver

instance (m : Machine) (site : HandlerSite) (args : Array Value) (receiver : Value) :
    Decidable (m.Admits site args receiver) :=
  inferInstanceAs (Decidable (_ ∨ ∃ caller ∈ _, _))

/-- The interpreter that does something else with a handler that may not start as
it would. Otherwise it is as `activate`. -/
def checkedActivate (other : Action Value) (remaining : Nat) (site : HandlerSite)
    (args : Array Value) (receiver : Value) : Action Value := do
  let m ← get
  if ¬ m.Admits site args receiver then other
  else if m.stopped then return .void
  else if m.config.maxCallDepth ≤ m.depth then
    throw (.callStackOverflow site.name m.config.maxCallDepth)
  else
    match remaining with
    | 0 => throw (.callStackOverflow site.name m.config.maxCallDepth)
    | remaining + 1 =>
      let c := callsWith (checkedActivate other remaining) m.maxHops
      if isErrorHandler site.name then runErrorHandler c site args receiver
      else runHandler c site args receiver

/-- The calls of a machine with that interpreter. -/
def Machine.checkedCalls (other : Action Value) (m : Machine) : Calls :=
  callsWith (checkedActivate other (m.config.maxCallDepth - m.depth)) m.maxHops

/-! ## Instructions start handlers so -/

/-- The second calls do the same as the first with handlers that may start. -/
structure Agree (c c' : Calls) : Prop where
  activate : ∀ {site args receiver} {m : Machine}, m.Admits site args receiver →
    perform (c'.activate site args receiver) m = perform (c.activate site args receiver) m
  reenter : c'.reenter = c.reenter

section

variable {c c' : Calls} {m : Machine} {frame : Frame} {i : Instruction}

theorem Agree.led_eq (h : Agree c c') : c'.led = c.led := by
  refine congrArg₂ Calls.mk (funext fun site => funext fun args => funext fun receiver => ?_)
    h.reenter
  by_cases led : LedBy args receiver
  · rw [if_pos led, if_pos led]
    exact funext fun m => h.activate (.inl led)
  · rw [if_neg led, if_neg led]

theorem localHandler?_site {position : Int32} {site : HandlerSite}
    (h : Step.localHandler? m position = some site) :
    ∃ top ∈ m.frames.head?, site.library = top.library ∧ site.script = top.script := by
  unfold Step.localHandler? at h
  obtain ⟨top, ht, h⟩ := Option.bind_eq_some_iff.mp h
  obtain ⟨index, -, h⟩ := Option.bind_eq_some_iff.mp h
  refine ⟨top, ht, ?_⟩
  unfold HandlerSite.at? at h
  split at h <;> cases h
  exact ⟨rfl, rfl⟩

theorem Frame.pop_cursor (f : Frame) : f.pop.2.cursor = f.cursor := by
  unfold Frame.pop
  split <;> rfl

/-- Where a frame has fetched a local call and given the arguments away, the
handlers of its script may start with its receiver. -/
theorem localCall_admits (call : i.opcode = .localCall) (hn : m.next? = some (frame, i))
    {m₁ : Machine} {rest : List Frame} (frames : m₁.frames = frame.advance.pop.2 :: rest)
    {site : HandlerSite} (h : Step.localHandler? m₁ i.argument = some site) (args : Array Value) :
    m₁.Admits site args m₁.receiver := by
  obtain ⟨top, ht, library, script⟩ := localHandler?_site h
  obtain rfl : frame.advance.pop.2 = top := by simpa [frames] using ht
  refine .inr ⟨_, ht, by rw [Machine.receiver, frames], library, script, ?_⟩
  have handler : frame.advance.pop.2.handler = frame.handler :=
    congrArg HandlerSite.handler frame.advance.pop_site
  have fetched : frame.handler.code[frame.cursor]? = some i := next?_current hn
  rw [handler, Frame.pop_cursor]
  show (frame.handler.code[frame.cursor]?).map _ = _
  rw [fetched, Option.map_some, call]

theorem Agree.runLocal (h : Agree c c') {position : Int32} {args : Array Value}
    (admits : ∀ site, Step.localHandler? m position = some site → m.Admits site args m.receiver) :
    perform (Step.runLocal c' position args) m = perform (Step.runLocal c position args) m := by
  rw [Step.runLocal, Step.runLocal, perform_get_bind, perform_get_bind]
  cases hs : Step.localHandler? m position with
  | none => rfl
  | some site => exact h.activate (admits site hs)

theorem Agree.localCall (h : Agree c c') (call : i.opcode = .localCall)
    (hn : m.next? = some (frame, i)) :
    perform (Step.execute c' i) (fetch frame i m).2 =
      perform (Step.execute c i) (fetch frame i m).2 := by
  obtain ⟨rest, log, events, -, he⟩ := fetch_frames hn
  have fetched : (fetch frame i m).2.frames = frame.advance :: rest := by rw [he]
  have isCall : i.opcode.isCall = true := by rw [call]; rfl
  have local' (c : Calls) : Step.callee c i = Step.runLocal c i.argument := by
    funext args
    rw [Step.callee, call]
  generalize (fetch frame i m).2 = m₁ at fetched ⊢
  have frames : (Step.popArguments m₁).2.frames = frame.advance.pop.2 :: rest := by
    rw [popArguments_apply fetched]
  have same (args : Array Value) :
      perform (Step.runLocal c' i.argument args) (Step.popArguments m₁).2 =
        perform (Step.runLocal c i.argument args) (Step.popArguments m₁).2 :=
    h.runLocal fun _ hs => localCall_admits call hn frames hs args
  rw [Step.execute_call isCall, Step.execute_call isCall, perform_callWith, perform_callWith,
    local', local', perform_bind, perform_bind, same]

/-- Every instruction starts handlers as they may start. -/
theorem Agree.execute (h : Agree c c') (hn : m.next? = some (frame, i)) :
    perform (Step.execute c' i) (fetch frame i m).2 =
      perform (Step.execute c i) (fetch frame i m).2 := by
  by_cases call : i.opcode = .localCall
  · exact h.localCall call hn
  · rw [← stepExecute_led c' call, h.led_eq, stepExecute_led c call]

/-! ## Frames and activations -/

theorem Agree.runFrame (h : Agree c c') (name : String) (limit remaining : Nat) (m : Machine) :
    perform (runFrame c' name limit remaining) m = perform (runFrame c name limit remaining) m := by
  induction remaining generalizing m with
  | zero =>
    cases hn : m.next? with
    | none => rw [runFrame_done hn, runFrame_done hn]
    | some next => rw [runFrame_exhausted hn, runFrame_exhausted hn]
  | succ remaining ih =>
    cases hn : m.next? with
    | none => rw [runFrame_done hn, runFrame_done hn]
    | some next =>
      obtain ⟨frame, i⟩ := next
      have step := h.execute hn
      rcases he : perform (Step.execute c i) (fetch frame i m).2 with ⟨fault | u, m₁⟩
      · rw [runFrame_fault hn he, runFrame_fault hn (step.trans he)]
      · rw [runFrame_next hn he, runFrame_next hn (step.trans he), ih]

/-- So do handlers, whether they handle errors or not. -/
theorem Agree.guarded (h : Agree c c') (site : HandlerSite) (args : Array Value) (receiver : Value)
    (m : Machine) :
    perform ((if isErrorHandler site.name then runErrorHandler else runHandler) c' site args
      receiver) m =
    perform ((if isErrorHandler site.name then runErrorHandler else runHandler) c site args
      receiver) m := by
  by_cases outermost : isErrorHandler site.name = true → m.errorHandlers = 0
  · rcases hs : enterHandler (Frame.enter site args receiver) (m.handling site) with ⟨call, m₁⟩
    rw [perform_guarded outermost hs rfl, perform_guarded outermost hs rfl, h.runFrame]
  · obtain ⟨handles, nested⟩ := Classical.not_imp.mp outermost
    rw [perform_nested handles (Nat.pos_of_ne_zero nested),
      perform_nested handles (Nat.pos_of_ne_zero nested)]

end

/-- Calls that the host forwards start handlers as they may start, by induction on
how often it does. -/
theorem callsWith_agree {activate activate' : HandlerSite → Array Value → Value → Action Value}
    (acts : ∀ {site args receiver} {m : Machine}, m.Admits site args receiver →
      perform (activate' site args receiver) m = perform (activate site args receiver) m)
    (hops : Nat) : Agree (callsWith activate hops) (callsWith activate' hops) := by
  induction hops with
  | zero => exact ⟨acts, rfl⟩
  | succ hops ih =>
    refine ⟨acts, funext fun name => funext fun args => ?_⟩
    show callHandler (callsWith activate' hops) name args =
      callHandler (callsWith activate hops) name args
    rw [← callHandler_led, ih.led_eq, callHandler_led]

theorem checkedActivate_eq (other : Action Value) (remaining : Nat) {site : HandlerSite}
    {args : Array Value} {receiver : Value} {m : Machine} (h : m.Admits site args receiver) :
    perform (checkedActivate other remaining site args receiver) m =
      perform (activate remaining site args receiver) m := by
  induction remaining generalizing site args receiver m with
  | zero => rw [checkedActivate, activate, perform_get_bind, perform_get_bind, if_neg (not_not.mpr h)]
  | succ remaining ih =>
    have inner := (callsWith_agree ih m.maxHops).guarded site args receiver m
    rw [checkedActivate, activate, perform_get_bind, perform_get_bind, if_neg (not_not.mpr h)]
    split
    · rfl
    · split
      · rfl
      · cases handles : isErrorHandler site.name with
        | true => simpa only [handles, if_true] using inner
        | false => simpa only [handles, Bool.false_eq_true, if_false] using inner

/-! ## Receivers lead, but for local calls -/

/-- Whatever the host asks of a machine, handlers start only with their receivers
as first arguments, or by local calls in handlers with the same receivers: it
makes no difference what `other` does in place of the others. And as long as its
frame is there, a handler keeps its arguments and its receiver. -/
theorem receiver_leads (other : Action Value) {entry : Entry} (m : Machine)
    (led : ∀ site args receiver, entry = .activate site args receiver → LedBy args receiver) :
    perform (entry.body (m.checkedCalls other)) m = perform entry.action m ∧
      ∀ run e, Ends (.act entry.body) m run e →
        ∀ x : Happening, x.Within run → m.origins <:+ x.machine.origins := by
  have agree : Agree m.calls (m.checkedCalls other) :=
    callsWith_agree (checkedActivate_eq other _) m.maxHops
  refine ⟨?_, fun run e h => h.origins_suffix⟩
  rw [entry.perform_action, ← body_led _ led, agree.led_eq, body_led _ led]

/-- A parent script whose method `ask` asks the method `answer` of the same
object, which returns its first argument. -/
def childMovie : Library where
  names := ⟨#["ask", "me", "answer"]⟩
  scripts := #[{
    member := 1
    kind := .parent
    handlers := #[
      { nameId := 0
        params := [1]
        code := #[⟨0, .pushArgList, 0x43, 0⟩, ⟨2, .localCall, 0x56, 1⟩, ⟨4, .ret, 0x01, 0⟩] },
      { nameId := 2
        params := [1]
        code := #[⟨0, .getParam, 0x4B, 0⟩, ⟨2, .ret, 0x01, 0⟩] }] }]

/-- A machine with an object of that script. -/
def childMachine : Machine where
  memory := { heap := { objects := #[{ script := some ⟨1, 1⟩ }] } }
  movie := some childMovie
  tracer := some .record

/-- The local call of `answer` is one that hands the receiver on. -/
theorem receiver_leads_ask :
    let entry := Entry.callMethod (.object ⟨0, 0⟩) "ask" #[]
    let refuse : Action Value := throw (.script "refused")
    perform (entry.body (childMachine.checkedCalls refuse)) childMachine =
        perform entry.action childMachine ∧
      ∀ run e, Ends (.act entry.body) childMachine run e →
        ∀ x : Happening, x.Within run → childMachine.origins <:+ x.machine.origins := by
  intro entry refuse
  have led : ∀ site args receiver, entry = .activate site args receiver → LedBy args receiver :=
    fun _ _ _ h => Entry.noConfusion h
  exact receiver_leads refuse childMachine led

/-- The handler that an event tells of starts with a receiver that is not its
first argument. -/
def TraceEvent.unled : TraceEvent → Bool
  | .enter call _ _ => !decide (LedBy call.args call.receiver)
  | _ => false

/-- Asked by a local call without arguments, `answer` has the object as receiver
but no arguments, and returns void. Asked by the host, it returns the object. -/
theorem local_call_drops_receiver :
    let child := Value.object ⟨0, 0⟩
    let asked := perform (Entry.callMethod child "ask" #[]).action childMachine
    let answered := perform (Entry.callMethod child "answer" #[]).action childMachine
    asked.2.events.any TraceEvent.unled = true ∧ asked.1 = .ok .void ∧
      answered.2.events.any TraceEvent.unled = false ∧ answered.1 = .ok child :=
  ⟨by decide +kernel, by decide +kernel, by decide +kernel, by decide +kernel⟩

end Lingo
