import Lingo.Proofs.Course

/-!
# Runs of a machine

A course of the interpreter is one `Beat` after another: a primitive change, the
start of an instruction, the start or the end of a handler, or a stop. A `Run`
keeps that order and forgets who called whom, which makes it easy to reason
about what comes after a moment.

* `Run.stopped`: a stopped machine stays stopped and executes no instruction;
* `Run.recorded`: the instructions of a run are those that a recording tracer is
  told of;
* `ActivationCourse.toRun`: courses are runs.
-/

namespace Lingo

open Machine

/-! ## Beats -/

/-- One thing that is done to a machine, and the instruction that is executed
then. -/
inductive Beat : Machine → Option Instruction → Machine → Prop
  | work {α : Type} {u : Update α} (h : Primitive True u) (m : Machine) : Beat m none (u m).2
  | stop (m : Machine) : Beat m none (setStopped true m).2
  | stopWith (message : String) (m : Machine) : Beat m none (stopWith message m).2
  | fetch {m : Machine} {frame : Frame} {i : Instruction} (h : m.next? = some (frame, i)) :
    Beat m (some i) (fetch frame i m).2
  | takeResult (m : Machine) : Beat m none (takeResult m).2
  | enter (frame : Frame) (m : Machine) : Beat m none (enterHandler frame m).2
  | leave (call : CallInfo) (outcome : Except Fault Value) (m : Machine) :
    Beat m none (leaveHandler call outcome m).2
  | count (errorHandlers : Nat) (m : Machine) : Beat m none { m with errorHandlers }

/-- What a beat keeps that executes no instruction. -/
structure Quiet (m m' : Machine) : Prop where
  tracer : m'.tracer = m.tracer
  recorded : m'.recorded = m.recorded
  stopped : m.stopped = true → m'.stopped = true

theorem takeResult_quiet (m : Machine) : Quiet m (takeResult m).2 := by
  unfold Machine.takeResult
  rw [modifyGet_apply]
  split <;> exact ⟨rfl, rfl, id⟩

theorem stopWith_quiet (message : String) (m : Machine) : Quiet m (stopWith message m).2 :=
  ⟨rfl, rfl, fun _ => rfl⟩

theorem enterHandler_quiet (frame : Frame) (m : Machine) : Quiet m (enterHandler frame m).2 := by
  obtain ⟨call, log, events, he, hr⟩ := enterHandler_eq frame m
  rw [he] at hr ⊢
  exact ⟨rfl, hr, id⟩

theorem leaveHandler_quiet (call : CallInfo) (outcome : Except Fault Value) (m : Machine) :
    Quiet m (leaveHandler call outcome m).2 := by
  obtain ⟨log, events, he, hr⟩ := leaveHandler_eq call outcome m
  rw [he] at hr ⊢
  exact ⟨rfl, hr, id⟩

theorem Beat.quiet {m m' : Machine} (h : Beat m none m') : Quiet m m' := by
  cases h with
  | work h =>
    have hs : Steady True False m _ := h.steady m
    exact ⟨hs.tracer, hs.recorded id, hs.stopped⟩
  | stop => exact ⟨rfl, rfl, fun _ => rfl⟩
  | stopWith message => exact stopWith_quiet message m
  | takeResult => exact takeResult_quiet m
  | enter frame => exact enterHandler_quiet frame m
  | leave call outcome => exact leaveHandler_quiet call outcome m
  | count => exact ⟨rfl, rfl, id⟩

theorem Beat.next? {m m' : Machine} {i : Instruction} (h : Beat m (some i) m') :
    ∃ frame, m.next? = some (frame, i) ∧ m' = (Machine.fetch frame i m).2 := by
  cases h with
  | fetch h => exact ⟨_, h, rfl⟩

/-- A stopped machine stays stopped and executes nothing. -/
theorem Beat.stopped {m m' : Machine} {i : Option Instruction} (h : Beat m i m')
    (hs : m.stopped = true) : m'.stopped = true ∧ i = none := by
  cases i with
  | none => exact ⟨h.quiet.stopped hs, rfl⟩
  | some i =>
    obtain ⟨frame, hn, -⟩ := h.next?
    rw [(next?_running hn).1] at hs
    cases hs

/-- A recording tracer is told of the instruction. -/
theorem Beat.recorded {m m' : Machine} {i : Option Instruction} (h : Beat m i m')
    (ht : m.tracer = some .record) :
    m'.tracer = some .record ∧ m'.recorded = i.toList ++ m.recorded := by
  cases i with
  | none => exact ⟨h.quiet.tracer.trans ht, h.quiet.recorded⟩
  | some i =>
    obtain ⟨frame, hn, rfl⟩ := h.next?
    obtain ⟨-, rest, hm, -⟩ := next?_running hn
    rw [fetch_eq hm]
    obtain ⟨log, events, he, hr⟩ := noteInstruction_noted frame.cursor i frame.stack
      { m with frames := frame.advance :: rest }
    refine ⟨by rw [he]; exact ht, hr.trans ?_⟩
    simp only [ht, if_true]
    rfl

/-! ## Runs -/

/-- One thing is done after another. -/
inductive Run : Machine → List Moment → Machine → Prop
  | done (m : Machine) : Run m [] m
  | next {m m₁ m₂ : Machine} {i : Option Instruction} {rest : List Moment} (h : Beat m i m₁)
    (hr : Run m₁ rest m₂) : Run m (⟨m, i⟩ :: rest) m₂

theorem Run.beat {m m' : Machine} {i : Option Instruction} (h : Beat m i m') :
    Run m [⟨m, i⟩] m' :=
  .next h (.done m')

theorem Run.append {m m₁ m₂ : Machine} {xs ys : List Moment} (h₁ : Run m xs m₁)
    (h₂ : Run m₁ ys m₂) : Run m (xs ++ ys) m₂ := by
  induction h₁ with
  | done => exact h₂
  | next h _ ih => exact .next h (ih h₂)

/-- What comes after a moment of a run is a run from there. -/
theorem Run.from_moment {m m' : Machine} {past future : List Moment} {x : Moment}
    (h : Run m (past ++ x :: future) m') : Run x.machine (x :: future) m' := by
  induction past generalizing m with
  | nil =>
    cases h with
    | next h hr => exact .next h hr
  | cons y past ih =>
    cases h with
    | next _ hr => exact ih hr

/-- A stopped machine stays stopped and executes no instruction. -/
theorem Run.stopped {m m' : Machine} {moments : List Moment} (h : Run m moments m')
    (hs : m.stopped = true) :
    m'.stopped = true ∧ ∀ x ∈ moments, x.machine.stopped = true ∧ x.executes = none := by
  induction h with
  | done => exact ⟨hs, fun x hx => nomatch hx⟩
  | @next m _ _ i rest h _ ih =>
    obtain ⟨hs₁, rfl⟩ := h.stopped hs
    obtain ⟨hs₂, hr⟩ := ih hs₁
    refine ⟨hs₂, fun x hx => ?_⟩
    rcases List.mem_cons.mp hx with rfl | hx
    · exact ⟨hs, rfl⟩
    · exact hr x hx

/-- The instructions of a run, first one first. -/
def executed (moments : List Moment) : List Instruction :=
  moments.filterMap (·.executes)

/-- A recording tracer is told of the instructions of a run, in their order. -/
theorem Run.recorded {m m' : Machine} {moments : List Moment} (h : Run m moments m')
    (ht : m.tracer = some .record) :
    m'.recorded = (executed moments).reverse ++ m.recorded := by
  induction h with
  | done => rfl
  | @next m _ _ i rest h _ ih =>
    obtain ⟨ht₁, hr⟩ := h.recorded ht
    rw [ih ht₁, hr]
    cases i <;> simp [executed]

/-! ## Courses are runs -/

section

variable {T : HandlerSite → Array Value → Value → Course Value}
  (runs : ∀ site args receiver m xs e, T site args receiver m xs e → Run m xs e.2)

include runs

theorem Follows.toRun {α : Type} {a : Calls → Action α} {m : Machine} {xs : List Moment}
    {e : Except Fault α × Machine} (h : Follows T a m xs e) : Run m xs e.2 := by
  induction h with
  | pure v m => exact .done m
  | throw fault m => exact .done m
  | read _ ih => exact ih
  | next _ _ iha ihf => exact iha.append ihf
  | skip _ ih => exact ih
  | work h m => exact .beat (.work h m)
  | stop m => exact .beat (.stop m)
  | activate h => exact runs _ _ _ _ _ _ h
  | contain _ _ ih => exact ih
  | containFault message _ ih => exact ih.append (.beat (.stopWith _ _))

theorem FrameCourse.toRun {name : String} {limit remaining : Nat} {m : Machine}
    {xs : List Moment} {e : Except Fault Value × Machine}
    (h : FrameCourse T name limit remaining m xs e) : Run m xs e.2 := by
  induction h with
  | done hn => exact .beat (.takeResult _)
  | exhausted hn => exact .done _
  | step hn hi _ ih => exact .next (.fetch hn) ((Follows.toRun runs hi).append ih)
  | fault hn hi =>
    have executed := Follows.toRun runs hi
    exact .next (.fetch hn) executed

theorem HandlerCourse.toRun {site : HandlerSite} {args : Array Value} {receiver : Value}
    {m : Machine} {xs : List Moment} {e : Except Fault Value × Machine}
    (h : HandlerCourse T site args receiver m xs e) : Run m xs e.2 := by
  obtain ⟨hs, h⟩ := h
  have entered := Beat.enter (Frame.enter site args receiver) m
  rw [hs] at entered
  exact .next entered ((FrameCourse.toRun runs h).append (.beat (.leave _ _ _)))

theorem Activates.toRun {deepest : Prop} {site : HandlerSite} {args : Array Value}
    {receiver : Value} {m : Machine} {xs : List Moment} {e : Except Fault Value × Machine}
    (h : Activates T deepest site args receiver m xs e) : Run m xs e.2 := by
  cases h with
  | stopped => exact .done m
  | overflow => exact .done m
  | run _ _ _ _ h => exact HandlerCourse.toRun runs h
  | nested => exact .beat (.work (.report _ _ _ _ (by decide)) m)
  | handle _ _ _ _ _ hc =>
    exact .next (.count 1 m) ((HandlerCourse.toRun runs hc).append (.beat (.count _ _)))

end

theorem ActivationCourse.toRun {remaining : Nat} {site : HandlerSite} {args : Array Value}
    {receiver : Value} {m : Machine} {xs : List Moment} {e : Except Fault Value × Machine}
    (h : ActivationCourse remaining site args receiver m xs e) : Run m xs e.2 := by
  induction remaining generalizing site args receiver m xs e with
  | zero => exact Activates.toRun (fun _ _ _ _ _ _ => False.elim) h
  | succ remaining ih => exact Activates.toRun (fun _ _ _ _ _ _ => ih) h

end Lingo
