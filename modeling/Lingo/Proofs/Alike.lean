import Lingo.Proofs.Happening

/-!
# Machines that are alike

Two machines are `Alike` if they differ at most in their tracers, in the events these
keep, and in what these write to the log.

* `Unobserving`: updates that neither look at how a machine is watched nor change it;
* `Indifferent`: updates that do the same to machines that are alike, as telling the
  watchers something does too;
* `Primitive.indifferent`: what operations are put together from does.
-/

namespace Lingo

open Machine

variable {α β : Type} {m m' m₁ m₂ : Machine}

/-- The machine as if nobody had watched it: without a tracer, without events, and
without what a tracer wrote to the log. -/
def Machine.unwatched (m : Machine) : Machine :=
  m.watched none (m.log.filter (·.target != .trace)) []

/-- The machines differ at most in how they are watched. -/
def Alike (m m' : Machine) : Prop :=
  m'.unwatched = m.unwatched

namespace Alike

theorem refl (m : Machine) : Alike m m :=
  rfl

theorem symm (h : Alike m m') : Alike m' m :=
  Eq.symm h

theorem trans (h : Alike m m₁) (h' : Alike m₁ m₂) : Alike m m₂ :=
  Eq.trans h' h

theorem of_watched {log : List LogEntry}
    (h : log.filter (·.target != .trace) = m.log.filter (·.target != .trace))
    (tracer : Option Tracer) (events : List TraceEvent) :
    Alike m (m.watched tracer log events) :=
  congrArg (fun log => m.watched none log []) h

theorem eq_watched (h : Alike m m') : m' = m.watched m'.tracer m'.log m'.events := by
  cases m
  cases m'
  simp only [Alike, unwatched, watched, Machine.mk.injEq] at h ⊢
  simp [h]

theorem field {γ : Type} (h : Alike m m') (f : Machine → γ) : f m'.unwatched = f m.unwatched :=
  congrArg f h

theorem log (h : Alike m m') :
    m'.log.filter (·.target != .trace) = m.log.filter (·.target != .trace) :=
  h.field Machine.log

theorem hosts (h : Alike m m') : m'.hosts = m.hosts :=
  h.field Machine.hosts

theorem config (h : Alike m m') : m'.config = m.config :=
  h.field Machine.config

theorem frames (h : Alike m m') : m'.frames = m.frames :=
  h.field Machine.frames

theorem stopped (h : Alike m m') : m'.stopped = m.stopped :=
  h.field Machine.stopped

theorem errorHandlers (h : Alike m m') : m'.errorHandlers = m.errorHandlers :=
  h.field Machine.errorHandlers

end Alike

/-- What does not depend on how a machine is watched is the same for machines that
are alike. -/
theorem Blind.alike {γ : Type} {f : Machine → γ} (blind : Blind f) (h : Alike m m') :
    f m' = f m := by
  have := blind.watched m m'.tracer m'.log m'.events
  rwa [← h.eq_watched] at this

theorem Alike.next? (h : Alike m m') : m'.next? = m.next? := by
  rw [h.eq_watched]
  rfl

theorem Alike.calls (h : Alike m m') : m'.calls = m.calls := by
  rw [Machine.calls, Machine.calls, Machine.maxHops, Machine.maxHops, Machine.depth, Machine.depth,
    h.hosts, h.config, h.frames]

/-! ## Updates -/

/-- Ends with the same outcome and with machines that are alike. -/
structure EndAlike (e e' : α × Machine) : Prop where
  outcome : e'.1 = e.1
  alike : Alike e.2 e'.2

theorem EndAlike.intro (v : α) (h : Alike m m') : EndAlike (v, m) (v, m') :=
  ⟨rfl, h⟩

theorem EndAlike.eq {v : α} {e' : α × Machine} (h : EndAlike (v, m) e') : e' = (v, e'.2) :=
  Prod.ext h.outcome rfl

/-- An update that does the same whoever watches. -/
def Indifferent (u : Update α) : Prop :=
  ∀ m m' : Machine, Alike m m' → EndAlike (u m) (u m')

/-- An update that neither looks at how the machine is watched nor changes it. -/
def Unobserving (u : Update α) : Prop :=
  ∀ (m : Machine) (tracer : Option Tracer) (log : List LogEntry) (events : List TraceEvent),
    u (m.watched tracer log events) = ((u m).1, (u m).2.watched tracer log events)

/-- Such an update leaves the log, the tracer and the events alone. -/
theorem Unobserving.own {u : Update α} (hu : Unobserving u) (m : Machine) :
    (u m).2 = (u m).2.watched m.tracer m.log m.events :=
  congrArg Prod.snd (hu m m.tracer m.log m.events)

theorem Unobserving.events {u : Update α} (hu : Unobserving u) (m : Machine) :
    (u m).2.events = m.events := by
  rw [hu.own m, watched]

theorem Unobserving.log {u : Update α} (hu : Unobserving u) (m : Machine) :
    (u m).2.log = m.log := by
  rw [hu.own m, watched]

theorem Unobserving.indifferent {u : Update α} (hu : Unobserving u) : Indifferent u := by
  intro m m' h
  have other := hu m m'.tracer m'.log m'.events
  rw [← h.eq_watched] at other
  rw [other]
  exact ⟨rfl, .of_watched (by rw [hu.log, h.log]) _ _⟩

theorem Indifferent.seq {u : Update α} {f : α → Update β} (hu : Indifferent u)
    (hf : ∀ v, Indifferent (f v)) : Indifferent (u >>= f) := by
  intro m m' h
  obtain ⟨outcome, alike⟩ := hu m m' h
  rw [update_bind_apply, update_bind_apply, outcome]
  exact hf _ _ _ alike

theorem Indifferent.look {f : Machine → Update α} (blind : Blind f)
    (hf : ∀ m, Indifferent (f m)) : Indifferent (get >>= f) := by
  intro m m' h
  rw [get_bind_apply, get_bind_apply, blind.alike h]
  exact hf m m m' h

theorem reportShown_indifferent (level : LogLevel) (target : LogTarget)
    (message : Memory → Option String) (fields : List (String × String)) :
    Indifferent (reportShown level target message fields) := by
  intro m m' h
  let entry := logEntry level target (message m.memory) fields
  have log : (entry :: m'.log).filter (·.target != .trace) =
      (entry :: m.log).filter (·.target != .trace) := by
    rw [List.filter_cons, List.filter_cons, h.log]
  refine ⟨rfl, ?_⟩
  rw [h.eq_watched]
  exact .of_watched (m := { m with log := entry :: m.log }) log _ _

theorem report_indifferent (level : LogLevel) (target : LogTarget) (message : String)
    (fields : List (String × String)) : Indifferent (report level target message fields) :=
  reportShown_indifferent _ _ _ _

/-- To tell a tracer something changes nothing else. -/
theorem notify_alike (event : Memory → TraceEvent) (line : Memory → Option String)
    (fields : List (String × String)) (m : Machine) :
    Alike m (notify event line fields m).2 := by
  unfold notify
  rw [get_bind_apply]
  rcases m.tracer with _ | _ | _
  · exact .refl m
  · exact .of_watched rfl m.tracer _
  · exact .of_watched rfl m.tracer m.events

theorem notify_indifferent (event : Memory → TraceEvent) (line : Memory → Option String)
    (fields : List (String × String)) : Indifferent (notify event line fields) :=
  fun _ _ h => ⟨rfl, (notify_alike _ _ _ _).symm.trans (h.trans (notify_alike _ _ _ _))⟩

theorem onTop_unobserving (g : Frame → Frame) : Unobserving (modify (·.onTop g)) := by
  intro m tracer log events
  show ((), (m.watched tracer log events).onTop g) = ((), (m.onTop g).watched tracer log events)
  unfold Machine.onTop
  cases hm : m.frames <;> simp only [watched, hm]

theorem pop_unobserving : Unobserving Machine.pop := by
  intro m tracer log events
  simp only [Machine.pop, modifyGet_apply, watched]
  split <;> rfl

theorem popMany_unobserving (n : Nat) : Unobserving (Machine.popMany n) := by
  intro m tracer log events
  simp only [Machine.popMany, modifyGet_apply, watched]
  split <;> rfl

theorem setMovieProp_unobserving (name : String) (value : Value) :
    Unobserving (setMovieProp name value) := by
  intro m tracer log events
  show ((), if Text.sameName name itemDelimiterName then _ else _) =
    ((), watched (if Text.sameName name itemDelimiterName then _ else _) tracer log events)
  split
  · simp only [watched]
    split <;> rfl
  · rfl

theorem setMemberProp_unobserving (castLib member : Int32) (prop : String) (value : Value) :
    Unobserving (setMemberProp castLib member prop value) := by
  intro m tracer log events
  simp only [Machine.setMemberProp, modifyGet_apply, watched]
  split <;> rfl

theorem takeResult_unobserving : Unobserving takeResult := by
  intro m tracer log events
  simp only [Machine.takeResult, modifyGet_apply, watched]
  split <;> rfl

theorem Primitive.indifferent {touch : Prop} {u : Update α} (h : Primitive touch u) :
    Indifferent u := by
  cases h with
  | reportShown level target message fields => exact reportShown_indifferent _ _ _ _
  | noteSet kind name value => exact notify_indifferent _ _ _
  | onTop _ hg => exact (onTop_unobserving _).indifferent
  | pop => exact pop_unobserving.indifferent
  | popMany _ n => exact (popMany_unobserving n).indifferent
  | setMovieProp name value => exact (setMovieProp_unobserving name value).indifferent
  | setMemberProp castLib member prop value =>
    exact (setMemberProp_unobserving castLib member prop value).indifferent
  | onMemory | bindGlobal | pass => exact Unobserving.indifferent fun _ _ _ _ => rfl

theorem setStopped_unobserving (stopped : Bool) : Unobserving (setStopped stopped) :=
  fun _ _ _ _ => rfl

theorem stopWith_indifferent (message : String) : Indifferent (stopWith message) :=
  .seq (report_indifferent _ _ _ _) fun _ => (setStopped_unobserving true).indifferent

theorem fetch_indifferent (frame : Frame) (i : Instruction) : Indifferent (fetch frame i) :=
  .seq (onTop_unobserving _).indifferent fun _ => notify_indifferent _ _ _

theorem enterHandler_indifferent (frame : Frame) : Indifferent (enterHandler frame) := by
  have push : Unobserving (pushFrame frame) := fun _ _ _ _ => rfl
  refine .seq push.indifferent fun _ => .look rfl fun m => ?_
  refine .seq (report_indifferent _ _ _ _) fun _ => .seq (notify_indifferent _ _ _) fun _ => ?_
  exact fun _ _ h => ⟨rfl, h⟩

theorem leaveHandler_indifferent (call : CallInfo) (outcome : Except Fault Value) :
    Indifferent (leaveHandler call outcome) := by
  have told : Indifferent (noteEnd call outcome) := by
    cases outcome with
    | ok v =>
      show Indifferent (noteExit call v)
      exact notify_indifferent _ _ _
    | error fault =>
      show Indifferent (noteFailure call.name fault)
      exact notify_indifferent _ _ _
  have pop : Unobserving popFrame := fun _ _ _ _ => rfl
  exact .seq told fun _ => .look rfl fun _ => .seq (report_indifferent _ _ _ _) fun _ =>
    pop.indifferent

theorem Alike.handling (h : Alike m m') (site : HandlerSite) :
    Alike (m.handling site) (m'.handling site) := by
  unfold Machine.handling
  by_cases handles : isErrorHandler site.name = true
  · rw [if_pos handles, if_pos handles]
    exact congrArg (fun m => { m with errorHandlers := m.errorHandlers + 1 }) h
  · rwa [if_neg handles, if_neg handles]

theorem Alike.handled (h : Alike m m') (site : HandlerSite) :
    Alike (m.handled site) (m'.handled site) := by
  unfold Machine.handled
  by_cases handles : isErrorHandler site.name = true
  · rw [if_pos handles, if_pos handles]
    exact congrArg (fun m => { m with errorHandlers := m.errorHandlers - 1 }) h
  · rwa [if_neg handles, if_neg handles]

end Lingo
