import Lingo.Proofs.Growth
import Lingo.Proofs.Nesting
import Lingo.Run.Host

/-!
# Routines

Every operation of the interpreter, short of running a frame, is put together
from a few primitive changes of a machine and from activations of handlers. The
inductive predicate `Routine touch call` says so of an action that is given its
`Calls`: `touch` is the condition under which it may change the frame of the
running handler, and `call` the condition under which it may activate handlers
and stop the machine. A `Hosting` is what the functions of the host may do;
without them (`Hosting.none`) a routine neither forwards calls nor fails where
the host does.

A property of all operations is then one induction over `Routine`, with a case
for each way to put actions together; that an operation is a routine is proved
once, beside the others of its kind (`Lingo.Proofs.Instruction`,
`Lingo.Proofs.Callee`). What routines read of a machine does not depend on its
limits, nor on how it is watched (`Blind`). What they do to its memory keeps all
script objects and does not break off (`Keeping`), but for writes with a key
(`Routine.write`), and what they report is not the tracer's to write and has an end
where no value contains itself.
-/

namespace Lingo

open Machine
open Host (perform)

variable {α β : Type}

/-! ## Performing actions -/

@[simp] theorem perform_pure (v : α) (m : Machine) : perform (pure v) m = (.ok v, m) := rfl

@[simp] theorem perform_throw (fault : Fault) (m : Machine) :
    perform (throw fault : Action α) m = (.error fault, m) := rfl

@[simp] theorem perform_sure (u : Update α) (m : Machine) :
    perform (sure u) m = (.ok (u m).1, (u m).2) := rfl

@[simp] theorem perform_get_bind (f : Machine → Action α) (m : Machine) :
    perform (get >>= f) m = perform (f m) m := rfl

theorem perform_sure_bind (u : Update α) (f : α → Action β) (m : Machine) :
    perform (sure u >>= f) m = perform (f (u m).1) (u m).2 := rfl

theorem perform_bind (a : Action α) (f : α → Action β) (m : Machine) :
    perform (a >>= f) m = match perform a m with
      | (.ok v, m₁) => perform (f v) m₁
      | (.error fault, m₁) => (.error fault, m₁) := by
  simp only [perform, ExceptT.run_bind, StateT.run_bind]
  rcases a.run.run m with ⟨_ | _, _⟩ <;> rfl

theorem perform_bind_ok {a : Action α} {m m₁ : Machine} {v : α} (h : perform a m = (.ok v, m₁))
    (f : α → Action β) : perform (a >>= f) m = perform (f v) m₁ := by
  rw [perform_bind, h]

theorem perform_bind_error {a : Action α} {m m₁ : Machine} {fault : Fault}
    (h : perform a m = (.error fault, m₁)) (f : α → Action β) :
    perform (a >>= f) m = (.error fault, m₁) := by
  rw [perform_bind, h]

theorem update_bind_apply (u : Update α) (f : α → Update β) (m : Machine) :
    (u >>= f) m = f (u m).1 (u m).2 := rfl

theorem get_bind_apply (f : Machine → Update α) (m : Machine) : (get >>= f) m = f m m := rfl

theorem modifyGet_apply (f : Machine → α × Machine) (m : Machine) :
    (modifyGet f : Update α) m = f m := rfl

/-! ## Limits and watchers -/

/-- The machine with other limits on calls and instructions. -/
def Machine.withLimits (m : Machine) (maxCallDepth stepLimit : Nat) : Machine :=
  { m with config := { m.config with maxCallDepth, stepLimit } }

/-- The machine with another tracer, and with another log and other events so
far. -/
def Machine.watched (m : Machine) (tracer : Option Tracer) (log : List LogEntry)
    (events : List TraceEvent) : Machine :=
  { m with tracer, log, events }

/-- What is computed from a machine does not depend on its limits, nor on how it is
watched. -/
def Blind {γ : Type} (f : Machine → γ) : Prop :=
  (fun m depth steps tracer log events =>
    f ((Machine.withLimits m depth steps).watched tracer log events)) = fun m _ _ _ _ _ => f m

theorem Blind.map {γ δ : Type} {f : Machine → γ} (h : Blind f) (g : γ → δ) :
    Blind fun m => g (f m) := by
  unfold Blind at h ⊢
  exact congrArg (fun f m depth steps tracer log events => g (f m depth steps tracer log events)) h

theorem Blind.withLimits {γ : Type} {f : Machine → γ} (h : Blind f) (m : Machine) (D L : Nat) :
    f (m.withLimits D L) = f m :=
  congrFun (congrFun (congrFun (congrFun (congrFun (congrFun h m) D) L) m.tracer) m.log) m.events

theorem Blind.watched {γ : Type} {f : Machine → γ} (h : Blind f) (m : Machine)
    (tracer : Option Tracer) (log : List LogEntry) (events : List TraceEvent) :
    f (m.watched tracer log events) = f m :=
  congrFun (congrFun (congrFun (congrFun (congrFun (congrFun h m) m.config.maxCallDepth)
    m.config.stepLimit) tracer) log) events

/-! ## Primitive changes -/

/-- What an instruction does to the frame of its handler at a time. -/
inductive FrameChange : (Frame → Frame) → Prop
  | push (v : Value) : FrameChange (·.push v)
  | swap : FrameChange Frame.swap
  | discard (n : Nat) : FrameChange (·.discard n)
  | goto (index : Nat) : FrameChange (·.goto index)
  | repeatFrom (index : Nat) : FrameChange (·.repeatFrom index)
  | setParam (i : Nat) (v : Value) : FrameChange (·.setParam i v)
  | setLocal (i : Nat) (v : Value) : FrameChange (·.setLocal i v)
  | finish (v : Value) : FrameChange (·.finish v)
  | pushTell (target : Value) : FrameChange (·.pushTell target)
  | popTell : FrameChange Frame.popTell

/-- The changes of a machine that operations are put together from. Those of
the running handler's frame are there only if `touch` holds. -/
inductive Primitive (touch : Prop) : {α : Type} → Update α → Prop
  | onTop (h : touch) {f : Frame → Frame} (hf : FrameChange f) :
    Primitive touch (modify (·.onTop f))
  | pop (h : touch) : Primitive touch pop
  | popMany (h : touch) (n : Nat) : Primitive touch (popMany n)
  | onMemory {α : Type} (f : Alloc α) : Primitive touch (onMemory f)
  | reportShown (level : LogLevel) (target : LogTarget) (message : Memory → Option String)
    (fields : List (String × String)) (own : target ≠ .trace)
    (ends : ∀ memory : Memory, memory.Founded → (message memory).isSome) :
    Primitive touch (reportShown level target message fields)
  | noteSet (kind : VariableKind) (name : String) (value : Value) :
    Primitive touch (noteSet kind name value)
  | bindGlobal (name : String) (value : Value) :
    Primitive touch (modify fun m => { m with globals := m.globals.insert name value })
  | setMovieProp (name : String) (value : Value) : Primitive touch (setMovieProp name value)
  | setMemberProp (castLib member : Int32) (prop : String) (value : Value) :
    Primitive touch (setMemberProp castLib member prop value)
  | pass : Primitive touch (modify fun m => { m with passes := m.passes.map (· + 1) })

theorem Primitive.mono {touch touch' : Prop} (ht : touch → touch') {u : Update α}
    (h : Primitive touch u) : Primitive touch' u := by
  cases h with
  | onTop h hf => exact .onTop (ht h) hf
  | pop h => exact .pop (ht h)
  | popMany h n => exact .popMany (ht h) n
  | onMemory f => exact .onMemory f
  | reportShown level target message fields own ends =>
    exact .reportShown level target message fields own ends
  | noteSet kind name value => exact .noteSet kind name value
  | bindGlobal name value => exact .bindGlobal name value
  | setMovieProp name value => exact .setMovieProp name value
  | setMemberProp castLib member prop value => exact .setMemberProp castLib member prop value
  | pass => exact .pass

theorem Primitive.report {touch : Prop} (level : LogLevel) (target : LogTarget) (message : String)
    (fields : List (String × String)) (own : target ≠ .trace) :
    Primitive touch (Machine.report level target message fields) :=
  .reportShown level target _ fields own fun _ _ => rfl

/-- A write with a key is a change of the memory like others, but that it may break off. -/
theorem Primitive.writeKey (touch : Prop) (cell : Nat) (key : Value)
    (f : String → Bindings Value → Bindings Value) :
    Primitive touch (Machine.onMemory (PropListMethod.writeKey cell key f)) :=
  .onMemory _

/-! ## Script objects -/

/-- An update that keeps all objects and the scripts that they are of, and in which no
operation on the memory breaks off. -/
def Keeping (u : Update α) : Prop :=
  ∀ m : Machine, m.memory.Grows (u m).2.memory

namespace Keeping

/-- Updates that leave the memory alone. -/
theorem quiet {u : Update α} (h : ∀ m, (u m).2.memory = m.memory) : Keeping u :=
  fun m => h m ▸ .refl m.memory

theorem onMemory {f : Alloc α} (h : Growing f) : Keeping (Machine.onMemory f) :=
  fun m => h m.memory

theorem onTop (f : Frame → Frame) : Keeping (modify (·.onTop f)) := by
  refine quiet fun m => ?_
  show (m.onTop f).memory = m.memory
  unfold Machine.onTop
  split <;> rfl

theorem pop : Keeping Machine.pop := by
  refine quiet fun m => ?_
  unfold Machine.pop
  rw [modifyGet_apply]
  split <;> rfl

theorem popMany (n : Nat) : Keeping (Machine.popMany n) := by
  refine quiet fun m => ?_
  unfold Machine.popMany
  rw [modifyGet_apply]
  split <;> rfl

theorem notify (event : Memory → TraceEvent) (line : Memory → Option String)
    (fields : List (String × String)) : Keeping (Machine.notify event line fields) := by
  refine quiet fun m => ?_
  unfold Machine.notify
  rw [get_bind_apply]
  rcases m.tracer with _ | _ | _ <;> rfl

theorem noteSet (kind : VariableKind) (name : String) (value : Value) :
    Keeping (Machine.noteSet kind name value) :=
  notify _ _ _

theorem setMovieProp (name : String) (value : Value) : Keeping (Machine.setMovieProp name value) := by
  refine quiet fun m => ?_
  show (if Text.sameName name itemDelimiterName then _ else _ : Machine).memory = m.memory
  split
  · split <;> rfl
  · rfl

theorem setMemberProp (castLib member : Int32) (prop : String) (value : Value) :
    Keeping (Machine.setMemberProp castLib member prop value) := by
  refine quiet fun m => ?_
  unfold Machine.setMemberProp
  rw [modifyGet_apply]
  split <;> rfl

end Keeping

/-! ## Functions of the host -/

/-- The functions of the host by name in lower case, and which calls they may
forward with which arguments. -/
structure Hosting where
  functions : List (String × HostFunction)
  mayForward : String → Array Value → Prop

namespace Hosting

/-- A machine without functions of the host. -/
def none : Hosting := ⟨[], fun _ _ => False⟩

/-- The function `key`, if it forwards calls, may do so with these arguments. -/
def Grants (H : Hosting) (key : String) (args : Array Value) : Prop :=
  ∀ name, H.functions.lookup key = some (.forward name) → H.mayForward name args

/-- What a call of `name` may come to at the host: a function with that name, or
the constructor of ancestors, which only a method of an object calls. -/
structure Serves (H : Hosting) (name : String) (args : Array Value) : Prop where
  named : H.Grants (Text.asciiLower name) args
  new (id : ObjectId) (h : args[0]? = some (.object id)) (ref : ScriptRef) :
    H.Grants "new" #[.script ref]

/-- Every function may forward calls with all arguments. -/
def Open (H : Hosting) : Prop :=
  ∀ key args, H.Grants key args

theorem none_open : none.Open :=
  fun _ _ _ h => nomatch h

theorem Open.serves {H : Hosting} (h : H.Open) (name : String) (args : Array Value) :
    H.Serves name args :=
  ⟨h _ _, fun _ _ _ => h _ _⟩

end Hosting

/-! ## Putting actions together -/

/-- Actions that are put together from primitive changes, activations, calls of
the host and stops. -/
inductive Routine (H : Hosting) (touch call : Prop) : {α : Type} → (Calls → Action α) → Prop
  | pure {α : Type} (v : α) : Routine H touch call fun _ => pure v
  | bind {α β : Type} {a : Calls → Action α} {f : Calls → α → Action β}
    (ha : Routine H touch call a) (hf : ∀ v, Routine H touch call fun c => f c v) :
    Routine H touch call fun c => a c >>= f c
  | read {α : Type} {f : Calls → Machine → Action α} (blind : Blind fun m c => f c m)
    (hf : ∀ m, m.hosts = H.functions → Routine H touch call fun c => f c m) :
    Routine H touch call fun c => get >>= f c
  | work {α : Type} {u : Update α} (h : Primitive touch u) (keeps : Keeping u) :
    Routine H touch call fun _ => sure u
  | write (h : call) (cell : Nat) (key : Value) (f : String → Bindings Value → Bindings Value) :
    Routine H touch call fun _ => sure (onMemory (PropListMethod.writeKey cell key f))
  /-- Only what does not call raises faults of its own. -/
  | throw {α : Type} (h : ¬ call) (fault : Fault) :
    Routine H touch call fun _ => (throw fault : Action α)
  /-- Functions of the host may fail at any time. -/
  | fail {α : Type} (h : call) (hosted : H.functions ≠ []) (fault : Fault) :
    Routine H touch call fun _ => (throw fault : Action α)
  | stop (h : call) : Routine H touch call fun _ => sure (setStopped true)
  | activate (h : call) (site : HandlerSite) (args : Array Value) (receiver : Value) :
    Routine H touch call fun c => c.activate site args receiver
  | reenter (h : call) (name : String) (args : Array Value) (granted : H.mayForward name args) :
    Routine H touch call fun c => c.reenter name args
  | contain {α : Type} (h : call) {a : Calls → Action α} (ha : Routine H touch call a)
    (message : Fault → String) : Routine H touch call fun c => sure (contained (a c) message)

namespace Routine

variable {H : Hosting} {touch call : Prop}

/-- Updates in a row. -/
theorem seq {u : Calls → Update α} {f : Calls → α → Update β}
    (hu : Routine H touch call fun c => sure (u c))
    (hf : ∀ v, Routine H touch call fun c => sure (f c v)) :
    Routine H touch call fun c => sure (u c >>= f c) :=
  .bind hu hf

/-- An update that reads the machine first. -/
theorem look {f : Calls → Machine → Update α} (blind : Blind fun m c => f c m)
    (hf : ∀ m, m.hosts = H.functions → Routine H touch call fun c => sure (f c m)) :
    Routine H touch call fun c => sure (get >>= f c) :=
  .read (blind.map fun f c => sure (f c)) hf

theorem reportShown (level : LogLevel) (target : LogTarget) {message : Memory → Option String}
    (ends : ∀ memory : Memory, memory.Founded → (message memory).isSome)
    (own : target ≠ .trace) (fields : List (String × String) := []) :
    Routine H touch call fun _ => sure (Machine.reportShown level target message fields) :=
  .work (.reportShown level target message fields own ends) (.quiet fun _ => rfl)

theorem report (level : LogLevel) (target : LogTarget) (message : String)
    (own : target ≠ .trace) (fields : List (String × String) := []) :
    Routine H touch call fun _ => sure (Machine.report level target message fields) :=
  .reportShown level target (fun _ _ => rfl) own fields

theorem onMemory {f : Alloc α} (hf : Growing f) :
    Routine H touch call fun _ => sure (Machine.onMemory f) :=
  .work (.onMemory f) (.onMemory hf)

theorem modifyHeap {f : Heap → Heap} (hf : ∀ heap : Heap, heap.Grows (f heap)) :
    Routine H touch call fun _ => sure (Machine.modifyHeap f) :=
  .onMemory (.modifyHeap hf)

theorem noteSet (kind : VariableKind) (name : String) (value : Value) :
    Routine H touch call fun _ => sure (Machine.noteSet kind name value) :=
  .work (.noteSet kind name value) (.noteSet kind name value)

theorem setGlobal (name : String) (value : Value) :
    Routine H touch call fun _ => sure (Machine.setGlobal name value) :=
  .seq (.noteSet _ _ _) fun _ => .work (.bindGlobal name value) (.quiet fun _ => rfl)

theorem setMovieProp (name : String) (value : Value) :
    Routine H touch call fun _ => sure (Machine.setMovieProp name value) :=
  .work (.setMovieProp name value) (.setMovieProp name value)

theorem setOwnProp (id : ObjectId) (name : String) (value : Value) :
    Routine H touch call fun _ => sure (Machine.setOwnProp id name value) :=
  .modifyHeap fun heap => .setOwn heap id name value

theorem setProp (id : ObjectId) (name : String) (value : Value) :
    Routine H touch call fun _ => sure (Machine.setProp id name value) :=
  .modifyHeap fun heap => .setProperty heap id name value

theorem setMemberProp (castLib member : Int32) (prop : String) (value : Value) :
    Routine H touch call fun _ => sure (Machine.setMemberProp castLib member prop value) :=
  .work (.setMemberProp castLib member prop value) (.setMemberProp castLib member prop value)

/-- An event is passed on. -/
theorem pass :
    Routine H touch call fun _ => sure (modify fun m => { m with passes := m.passes.map (· + 1) }) :=
  .work .pass (.quiet fun _ => rfl)

/-! ## Changes of the running handler's frame -/

theorem change (h : touch) {f : Frame → Frame} (hf : FrameChange f) :
    Routine H touch call fun _ => sure (modify (·.onTop f)) :=
  .work (.onTop h hf) (.onTop f)

theorem onTop {f : Frame → Frame} (hf : FrameChange f) :
    Routine H True call fun _ => sure (modify (·.onTop f)) :=
  .change trivial hf

theorem pop : Routine H True call fun _ => sure Machine.pop :=
  .work (.pop trivial) .pop

theorem popMany (n : Nat) : Routine H True call fun _ => sure (Machine.popMany n) :=
  .work (.popMany trivial n) (.popMany n)

end Routine

end Lingo
