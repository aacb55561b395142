import Lingo.Proofs.Routine

/-!
# What operations leave alone

`Steady touch call m m'` lists what an operation that leads from `m` to `m'`
keeps: the functions of the host, the limits, the tracer and the number of error
handlers, every frame but the running handler's, and the stop of a stopped
machine. Without `touch` it keeps the running handler's frame as well, and
without `call` it neither stops the machine nor executes instructions.

The relation is reflexive and transitive, and every primitive change is steady
(`Primitive.steady`), so that what is put together from primitive changes is.
-/

namespace Lingo

open Machine

/-- A frame that has not returned has no result. -/
def Frame.Idle (f : Frame) : Prop :=
  f.returned = false → f.result = .void

theorem Frame.enter_idle (site : HandlerSite) (args : Array Value) (receiver : Value) :
    (Frame.enter site args receiver).Idle :=
  fun _ => rfl

theorem FrameChange.idle {g : Frame → Frame} (hg : FrameChange g) {f : Frame} (hf : f.Idle) :
    (g f).Idle := by
  cases hg with
  | finish v => exact fun h => nomatch h
  | swap =>
    unfold Frame.swap
    split <;> exact hf
  | setLocal i v =>
    show (f.setLocal i v).Idle
    unfold Frame.setLocal
    split <;> exact hf
  | _ => exact hf

theorem Frame.pop_idle {f : Frame} (hf : f.Idle) : f.pop.2.Idle := by
  unfold Frame.pop
  split <;> exact hf

/-- The instruction that an event tells of. -/
def TraceEvent.instruction? : TraceEvent → Option Instruction
  | .instruction _ i _ _ => some i
  | _ => none

/-- The instructions that a recording tracer was told of, last one first. -/
def Machine.recorded (m : Machine) : List Instruction :=
  m.events.filterMap TraceEvent.instruction?

/-- What an operation from `m` to `m'` keeps. -/
structure Steady (touch call : Prop) (m m' : Machine) : Prop where
  hosts : m'.hosts = m.hosts
  maxCallDepth : m'.config.maxCallDepth = m.config.maxCallDepth
  stepLimit : m'.config.stepLimit = m.config.stepLimit
  tracer : m'.tracer = m.tracer
  errorHandlers : m'.errorHandlers = m.errorHandlers
  depth : m'.frames.length = m.frames.length
  below : m'.frames.tail = m.frames.tail
  frames : ¬ touch → m'.frames = m.frames
  idle : (∀ f ∈ m.frames.head?, f.Idle) → ∀ f ∈ m'.frames.head?, f.Idle
  stopped : m.stopped = true → m'.stopped = true
  running : ¬ call → m'.stopped = m.stopped
  recorded : ¬ call → m'.recorded = m.recorded

namespace Steady

variable {touch call : Prop} {m m₁ m₂ : Machine}

theorem refl (m : Machine) : Steady touch call m m :=
  ⟨rfl, rfl, rfl, rfl, rfl, rfl, rfl, fun _ => rfl, id, id, fun _ => rfl, fun _ => rfl⟩

theorem trans (h₁ : Steady touch call m m₁) (h₂ : Steady touch call m₁ m₂) :
    Steady touch call m m₂ where
  hosts := h₂.hosts.trans h₁.hosts
  maxCallDepth := h₂.maxCallDepth.trans h₁.maxCallDepth
  stepLimit := h₂.stepLimit.trans h₁.stepLimit
  tracer := h₂.tracer.trans h₁.tracer
  errorHandlers := h₂.errorHandlers.trans h₁.errorHandlers
  depth := h₂.depth.trans h₁.depth
  below := h₂.below.trans h₁.below
  frames h := (h₂.frames h).trans (h₁.frames h)
  idle h := h₂.idle (h₁.idle h)
  stopped h := h₂.stopped (h₁.stopped h)
  running h := (h₂.running h).trans (h₁.running h)
  recorded h := (h₂.recorded h).trans (h₁.recorded h)

theorem mono {touch' call' : Prop} (ht : touch → touch') (hc : call → call')
    (h : Steady touch call m m₁) : Steady touch' call' m m₁ :=
  { h with
    frames := fun n => h.frames (n ∘ ht)
    running := fun n => h.running (n ∘ hc)
    recorded := fun n => h.recorded (n ∘ hc) }

/-- Where only fields change that `Steady` does not speak of. -/
theorem of_eq (hosts : m₁.hosts = m.hosts)
    (maxCallDepth : m₁.config.maxCallDepth = m.config.maxCallDepth)
    (stepLimit : m₁.config.stepLimit = m.config.stepLimit) (tracer : m₁.tracer = m.tracer)
    (errorHandlers : m₁.errorHandlers = m.errorHandlers) (frames : m₁.frames = m.frames)
    (stopped : m₁.stopped = m.stopped) (recorded : ¬ call → m₁.recorded = m.recorded) :
    Steady touch call m m₁ where
  hosts := hosts
  maxCallDepth := maxCallDepth
  stepLimit := stepLimit
  tracer := tracer
  errorHandlers := errorHandlers
  depth := by rw [frames]
  below := by rw [frames]
  frames _ := frames
  idle h := by rwa [frames]
  stopped h := by rwa [stopped]
  running _ := stopped
  recorded := recorded

/-- Where only the running handler's frame changes. -/
theorem of_top (ht : touch) {f f' : Frame} {rest : List Frame} (hm : m.frames = f :: rest)
    (hi : f.Idle → f'.Idle) : Steady touch call m { m with frames := f' :: rest } where
  hosts := rfl
  maxCallDepth := rfl
  stepLimit := rfl
  tracer := rfl
  errorHandlers := rfl
  depth := by simp [hm]
  below := by simp [hm]
  frames n := absurd ht n
  idle h := by simpa [hm] using hi (h f (by simp [hm]))
  stopped h := h
  running _ := rfl
  recorded _ := rfl

/-- A machine that goes on was not stopped before. -/
theorem was_running (h : Steady touch call m m₁) (running : m₁.stopped = false) :
    m.stopped = false := by
  cases stopped : m.stopped with
  | false => rfl
  | true => rw [← running, h.stopped stopped]

end Steady

theorem onTop_steady {touch call : Prop} (ht : touch) {g : Frame → Frame}
    (hg : ∀ f : Frame, f.Idle → (g f).Idle) (m : Machine) :
    Steady touch call m (m.onTop g) := by
  unfold Machine.onTop
  split
  · exact .refl m
  · rename_i f rest hm
    exact .of_top ht hm (hg f)

/-! ## The log and the tracer -/

/-- At most the log and the events differ, the events by those of `added`. -/
def Noted (added : List Instruction) (m m' : Machine) : Prop :=
  ∃ log events, m' = { m with log, events } ∧ m'.recorded = added ++ m.recorded

theorem Noted.steady {touch call : Prop} {added : List Instruction} {m m' : Machine}
    (h : Noted added m m') (ha : ¬ call → added = []) : Steady touch call m m' := by
  obtain ⟨log, events, rfl, hr⟩ := h
  exact .of_eq rfl rfl rfl rfl rfl rfl rfl fun n => by rw [hr, ha n, List.nil_append]

theorem Noted.refl (m : Machine) : Noted [] m m :=
  ⟨m.log, m.events, rfl, rfl⟩

theorem reportShown_noted (level : LogLevel) (target : LogTarget)
    (message : Memory → Option String) (fields : List (String × String)) (m : Machine) :
    Noted [] m (reportShown level target message fields m).2 :=
  ⟨_, m.events, rfl, rfl⟩

theorem report_noted (level : LogLevel) (target : LogTarget) (message : String)
    (fields : List (String × String)) (m : Machine) :
    Noted [] m (report level target message fields m).2 :=
  reportShown_noted _ _ _ _ m

/-- A recording tracer keeps the instruction that it is told of. -/
theorem notify_noted (event : Memory → TraceEvent) (line : Memory → Option String)
    (fields : List (String × String)) (m : Machine) :
    Noted (if m.tracer = some .record then (event m.memory).instruction?.toList else []) m
      (notify event line fields m).2 := by
  unfold notify
  rw [get_bind_apply]
  rcases m.tracer with _ | _ | _
  · exact .refl m
  · refine ⟨m.log, event m.memory :: m.events, rfl, ?_⟩
    show List.filterMap TraceEvent.instruction? (event m.memory :: m.events) = _
    rw [List.filterMap_cons]
    cases (event m.memory).instruction? <;> rfl
  · exact reportShown_noted _ _ _ _ m

/-- Where the tracer is told of something else than an instruction. -/
theorem notify_noted_nil {event : Memory → TraceEvent}
    (he : ∀ memory, (event memory).instruction? = none) (line : Memory → Option String)
    (fields : List (String × String)) (m : Machine) : Noted [] m (notify event line fields m).2 := by
  have h := notify_noted event line fields m
  rwa [he, Option.toList_none, ite_self] at h

/-! ## Primitive changes -/

theorem setMovieProp_steady {touch call : Prop} (name : String) (value : Value) (m : Machine) :
    Steady touch call m (setMovieProp name value m).2 := by
  show Steady touch call m (if Text.sameName name itemDelimiterName then _ else _)
  split
  · split <;> exact .of_eq rfl rfl rfl rfl rfl rfl rfl fun _ => rfl
  · exact .of_eq rfl rfl rfl rfl rfl rfl rfl fun _ => rfl

theorem setMemberProp_steady {touch call : Prop} (castLib member : Int32) (prop : String)
    (value : Value) (m : Machine) :
    Steady touch call m (setMemberProp castLib member prop value m).2 := by
  unfold setMemberProp
  rw [modifyGet_apply]
  split <;> exact .of_eq rfl rfl rfl rfl rfl rfl rfl fun _ => rfl

theorem Primitive.steady {α : Type} {touch call : Prop} {u : Update α} (h : Primitive touch u)
    (m : Machine) : Steady touch call m (u m).2 := by
  cases h with
  | onTop ht hg => exact onTop_steady ht (fun f => hg.idle) m
  | pop ht =>
    unfold Machine.pop
    rw [modifyGet_apply]
    split
    · exact .refl m
    · rename_i f rest hm
      exact .of_top ht hm Frame.pop_idle
  | popMany ht n =>
    unfold Machine.popMany
    rw [modifyGet_apply]
    split
    · exact .refl m
    · rename_i f rest hm
      exact .of_top ht hm id
  | onMemory f => exact .of_eq rfl rfl rfl rfl rfl rfl rfl fun _ => rfl
  | reportShown level target message fields => exact .of_eq rfl rfl rfl rfl rfl rfl rfl fun _ => rfl
  | noteSet kind name value => exact (notify_noted_nil (fun _ => rfl) _ _ m).steady fun _ => rfl
  | bindGlobal name value => exact .of_eq rfl rfl rfl rfl rfl rfl rfl fun _ => rfl
  | setMovieProp name value => exact setMovieProp_steady name value m
  | setMemberProp castLib member prop value => exact setMemberProp_steady castLib member prop value m
  | pass => exact .of_eq rfl rfl rfl rfl rfl rfl rfl fun _ => rfl

end Lingo
