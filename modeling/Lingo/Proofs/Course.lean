import Lingo.Proofs.Activation

/-!
# Courses of the interpreter

What happens while the interpreter works, in order. A `Moment` is the machine
just before something is done to it, with the instruction that is executed then,
if one is.

`Follows`, `FrameCourse`, `HandlerCourse` and `ActivationCourse` say by which
moments routines, frames, handlers and activations come to their ends. They
follow the definitions of the interpreter one by one; a routine is taken with
its calls as a parameter, so that its activations stand where it makes them.
Every activation has a course, to the end that it has (`activate_course`).
-/

namespace Lingo

open Machine
open Host (perform)

/-- The machine before something is done to it, and the instruction that is
executed then. -/
structure Moment where
  machine : Machine
  executes : Option Instruction := none

/-! ## Courses -/

/-- From a machine by way of moments to an outcome and a machine. -/
abbrev Course (α : Type) := Machine → List Moment → Except Fault α × Machine → Prop

/-- The courses of an action that is given its calls, where `T` are those of
activations. -/
inductive Follows (T : HandlerSite → Array Value → Value → Course Value) :
    {α : Type} → (Calls → Action α) → Course α
  | pure {α : Type} (v : α) (m : Machine) : Follows T (fun _ => pure v) m [] (.ok v, m)
  | throw {α : Type} (fault : Fault) (m : Machine) :
    Follows T (fun _ => (throw fault : Action α)) m [] (.error fault, m)
  | read {α : Type} {f : Calls → Machine → Action α} {m : Machine} {xs : List Moment}
    {e : Except Fault α × Machine} (h : Follows T (fun c => f c m) m xs e) :
    Follows T (fun c => get >>= f c) m xs e
  | next {α β : Type} {a : Calls → Action α} {f : Calls → α → Action β} {m m₁ : Machine}
    {xs ys : List Moment} {v : α} {e : Except Fault β × Machine}
    (ha : Follows T a m xs (.ok v, m₁)) (hf : Follows T (fun c => f c v) m₁ ys e) :
    Follows T (fun c => a c >>= f c) m (xs ++ ys) e
  | skip {α β : Type} {a : Calls → Action α} {f : Calls → α → Action β} {m m₁ : Machine}
    {xs : List Moment} {fault : Fault} (ha : Follows T a m xs (.error fault, m₁)) :
    Follows T (fun c => a c >>= f c) m xs (.error fault, m₁)
  | work {α : Type} {u : Update α} (h : Primitive True u) (m : Machine) :
    Follows T (fun _ => sure u) m [⟨m, none⟩] (.ok (u m).1, (u m).2)
  | stop (m : Machine) :
    Follows T (fun _ => sure (setStopped true)) m [⟨m, none⟩] (.ok (), (setStopped true m).2)
  | activate {site : HandlerSite} {args : Array Value} {receiver : Value} {m : Machine}
    {xs : List Moment} {e : Except Fault Value × Machine} (h : T site args receiver m xs e) :
    Follows T (fun c => c.activate site args receiver) m xs e
  | contain {α : Type} {a : Calls → Action α} {m m₁ : Machine} {xs : List Moment} {v : α}
    (message : Fault → String) (ha : Follows T a m xs (.ok v, m₁)) :
    Follows T (fun c => sure (contained (a c) message)) m xs (.ok (some v), m₁)
  | containFault {α : Type} {a : Calls → Action α} {m m₁ : Machine} {xs : List Moment}
    {fault : Fault} (message : Fault → String) (ha : Follows T a m xs (.error fault, m₁)) :
    Follows T (fun c => sure (contained (a c) message)) m (xs ++ [⟨m₁, none⟩])
      (.ok none, (stopWith (message fault) m₁).2)

/-- The courses of the running handler `name`, which may execute a number of
instructions more. -/
inductive FrameCourse (T : HandlerSite → Array Value → Value → Course Value) (name : String)
    (limit : Nat) : Nat → Course Value
  | done {remaining : Nat} {m : Machine} (hn : m.next? = none) :
    FrameCourse T name limit remaining m [⟨m, none⟩] (.ok (takeResult m).1, (takeResult m).2)
  | exhausted {m : Machine} {frame : Frame} {i : Instruction} (hn : m.next? = some (frame, i)) :
    FrameCourse T name limit 0 m [] (.error (.stepLimitExceeded name i.offset limit), m)
  | step {remaining : Nat} {m m₁ : Machine} {frame : Frame} {i : Instruction}
    {xs ys : List Moment} {e : Except Fault Value × Machine} (hn : m.next? = some (frame, i))
    (hi : Follows T (fun c => Step.execute c i) (fetch frame i m).2 xs (.ok (), m₁))
    (hr : FrameCourse T name limit remaining m₁ ys e) :
    FrameCourse T name limit (remaining + 1) m (⟨m, some i⟩ :: (xs ++ ys)) e
  | fault {remaining : Nat} {m m₁ : Machine} {frame : Frame} {i : Instruction}
    {xs : List Moment} {fault : Fault} (hn : m.next? = some (frame, i))
    (hi : Follows T (fun c => Step.execute c i) (fetch frame i m).2 xs (.error fault, m₁)) :
    FrameCourse T name limit (remaining + 1) m (⟨m, some i⟩ :: xs) (.error fault, m₁)

/-- The courses of a handler in a frame of its own. -/
inductive HandlerCourse (T : HandlerSite → Array Value → Value → Course Value)
    (site : HandlerSite) (args : Array Value) (receiver : Value) : Course Value
  | run {m m₁ : Machine} {call : CallInfo} {xs : List Moment} {e : Except Fault Value × Machine}
    (hs : enterHandler (Frame.enter site args receiver) m = (call, m₁))
    (h : FrameCourse T site.name m₁.config.stepLimit m₁.config.stepLimit m₁ xs e) :
    HandlerCourse T site args receiver m (⟨m, none⟩ :: (xs ++ [⟨e.2, none⟩]))
      (e.1, (leaveHandler call e.1 e.2).2)

/-- The courses of an activation, where `T` are those of the activations within
it; `deepest` says that there may be none. -/
inductive Activates (T : HandlerSite → Array Value → Value → Course Value) (deepest : Prop)
    (site : HandlerSite) (args : Array Value) (receiver : Value) : Course Value
  | stopped {m : Machine} (h : m.stopped = true) :
    Activates T deepest site args receiver m [] (.ok .void, m)
  | overflow {m : Machine} (running : m.stopped = false)
    (deep : deepest ∨ m.config.maxCallDepth ≤ m.depth) :
    Activates T deepest site args receiver m []
      (.error (.callStackOverflow site.name m.config.maxCallDepth), m)
  | run {m : Machine} {xs : List Moment} {e : Except Fault Value × Machine}
    (running : m.stopped = false) (inner : ¬ deepest) (shallow : m.depth < m.config.maxCallDepth)
    (ordinary : isErrorHandler site.name = false)
    (h : HandlerCourse T site args receiver m xs e) :
    Activates T deepest site args receiver m xs e
  | nested {m : Machine} (running : m.stopped = false) (inner : ¬ deepest)
    (shallow : m.depth < m.config.maxCallDepth) (handles : isErrorHandler site.name = true)
    (h : 0 < m.errorHandlers) :
    Activates T deepest site args receiver m [⟨m, none⟩]
      (.ok .void, (report .debug .call ("skipping nested " ++ site.name) [] m).2)
  | handle {m : Machine} {xs : List Moment} {e : Except Fault Value × Machine}
    (running : m.stopped = false) (inner : ¬ deepest) (shallow : m.depth < m.config.maxCallDepth)
    (handles : isErrorHandler site.name = true) (h : m.errorHandlers = 0)
    (hc : HandlerCourse T site args receiver { m with errorHandlers := 1 } xs e) :
    Activates T deepest site args receiver m (⟨m, none⟩ :: (xs ++ [⟨e.2, none⟩]))
      (e.1, { e.2 with errorHandlers := e.2.errorHandlers - 1 })

/-- The courses of activations within which handlers may be activated
`remaining - 1` levels deep. -/
def ActivationCourse : Nat → HandlerSite → Array Value → Value → Course Value
  | 0 => Activates (fun _ _ _ _ _ _ => False) True
  | remaining + 1 => Activates (ActivationCourse remaining) False

/-! ## Every activation has its course -/

section

variable {T : HandlerSite → Array Value → Value → Course Value} {c : Calls} (sound : SoundCalls c)
  (courses : ∀ site args receiver (m : Machine), m.hosts = [] →
    ∃ xs, T site args receiver m xs (perform (c.activate site args receiver) m))

include sound courses

theorem Routine.follows {α : Type} {touch call : Prop} {a : Calls → Action α}
    (h : Routine .none touch call a) (m : Machine) (hosts : m.hosts = []) :
    ∃ xs, Follows T a m xs (perform (a c) m) := by
  induction h generalizing m with
  | pure v => exact ⟨[], .pure v m⟩
  | @bind α β a f ha hf iha ihf =>
    obtain ⟨xs, hx⟩ := iha m hosts
    have kept := (ha.sound sound m hosts).steady.hosts
    rcases he : perform (a c) m with ⟨fault | v, m₁⟩
    · rw [he] at hx
      rw [perform_bind_error he]
      exact ⟨xs, .skip hx⟩
    · rw [he] at hx kept
      obtain ⟨ys, hy⟩ := ihf v m₁ (kept.trans hosts)
      rw [perform_bind_ok he]
      exact ⟨xs ++ ys, .next hx hy⟩
  | read same hf ih =>
    obtain ⟨xs, hx⟩ := ih m hosts m hosts
    exact ⟨xs, .read hx⟩
  | work h => exact ⟨_, .work (h.mono fun _ => trivial) m⟩
  | write h cell key f => exact ⟨_, .work (.writeKey _ cell key f) m⟩
  | throw h fault => exact ⟨[], .throw fault m⟩
  | fail h hosted fault => exact absurd rfl hosted
  | stop h => exact ⟨_, .stop m⟩
  | activate h site args receiver =>
    obtain ⟨xs, hx⟩ := courses site args receiver m hosts
    exact ⟨xs, .activate hx⟩
  | reenter h name args granted => exact granted.elim
  | @contain α h a ha message ih =>
    obtain ⟨xs, hx⟩ := ih m hosts
    rw [perform_sure]
    rcases he : perform (a c) m with ⟨fault | v, m₁⟩
    · rw [he] at hx
      rw [contained_error he]
      exact ⟨_, .containFault message hx⟩
    · rw [he] at hx
      rw [contained_ok he]
      exact ⟨xs, .contain message hx⟩

theorem execute_follows (i : Instruction) (m : Machine) (hosts : m.hosts = []) :
    ∃ xs, Follows T (fun c => Step.execute c i) m xs (perform (Step.execute c i) m) := by
  cases hi : i.opcode.isCall with
  | false => exact (Step.execute_routine hi).follows sound courses m hosts
  | true => exact (Step.execute_call_routine Hosting.none_open hi).follows sound courses m hosts

theorem runFrame_course (name : String) (limit remaining : Nat) (m : Machine)
    (hosts : m.hosts = []) :
    ∃ xs, FrameCourse T name limit remaining m xs
      (perform (runFrame c name limit remaining) m) := by
  induction remaining generalizing m with
  | zero =>
    cases hn : m.next? with
    | none =>
      rw [runFrame_done hn]
      exact ⟨_, .done hn⟩
    | some next =>
      rw [runFrame_exhausted hn]
      exact ⟨[], .exhausted hn⟩
  | succ remaining ih =>
    cases hn : m.next? with
    | none =>
      rw [runFrame_done hn]
      exact ⟨_, .done hn⟩
    | some next =>
      obtain ⟨frame, i⟩ := next
      obtain ⟨xs, hx⟩ := execute_follows sound courses i (fetch frame i m).2
        ((fetch_steady hn).hosts.trans hosts)
      have kept := (stepFrame_ended sound hosts hn).steady.hosts
      rw [← perform_stepFrame] at hx
      rw [runFrame_step hn]
      rcases he : perform (stepFrame c frame i) m with ⟨fault | u, m₁⟩
      · rw [he] at hx
        rw [perform_bind_error he]
        exact ⟨_, .fault hn hx⟩
      · rw [he] at hx kept
        obtain ⟨ys, hy⟩ := ih m₁ (kept.trans hosts)
        rw [perform_bind_ok he]
        exact ⟨_, .step hn hx hy⟩

theorem runHandler_course (site : HandlerSite) (args : Array Value) (receiver : Value)
    (m : Machine) (hosts : m.hosts = []) :
    ∃ xs, HandlerCourse T site args receiver m xs
      (perform (runHandler c site args receiver) m) := by
  obtain ⟨call, log, events, hs, -⟩ := enterHandler_eq (Frame.enter site args receiver) m
  obtain ⟨xs, hx⟩ := runFrame_course sound courses site.name m.config.stepLimit
    m.config.stepLimit { m with frames := Frame.enter site args receiver :: m.frames, log, events } hosts
  rw [perform_runHandler hs rfl]
  exact ⟨_, .run hs hx⟩

theorem runErrorHandler_course {deepest : Prop} (inner : ¬ deepest) (site : HandlerSite)
    (args : Array Value) (receiver : Value) (m : Machine) (hosts : m.hosts = [])
    (running : m.stopped = false) (shallow : m.depth < m.config.maxCallDepth)
    (handles : isErrorHandler site.name = true) :
    ∃ xs, Activates T deepest site args receiver m xs
      (perform (runErrorHandler c site args receiver) m) := by
  rcases Nat.eq_zero_or_pos m.errorHandlers with hm | hm
  · obtain ⟨xs, hx⟩ := runHandler_course sound courses site args receiver
      { m with errorHandlers := 1 } hosts
    rcases he : perform (runHandler c site args receiver) { m with errorHandlers := 1 } with
      ⟨outcome, m₁⟩
    rw [he] at hx
    rw [perform_runErrorHandler hm he]
    exact ⟨_, .handle running inner shallow handles hm hx⟩
  · rw [perform_runErrorHandler_nested c site args receiver hm]
    exact ⟨_, .nested running inner shallow handles hm⟩

end

/-- Every activation has a course, to the end that it has. -/
theorem activate_course (remaining : Nat) (site : HandlerSite) (args : Array Value)
    (receiver : Value) (m : Machine) (hosts : m.hosts = []) :
    ∃ xs, ActivationCourse remaining site args receiver m xs
      (perform (activate remaining site args receiver) m) := by
  induction remaining generalizing site args receiver m with
  | zero =>
    cases stopped : m.stopped with
    | true =>
      rw [activate_stopped 0 site args receiver stopped]
      exact ⟨[], .stopped stopped⟩
    | false =>
      rw [activate_overflow site args receiver stopped (.inl rfl)]
      exact ⟨[], .overflow stopped (.inl trivial)⟩
  | succ remaining ih =>
    cases stopped : m.stopped with
    | true =>
      rw [activate_stopped _ site args receiver stopped]
      exact ⟨[], .stopped stopped⟩
    | false =>
      rcases Nat.lt_or_ge m.depth m.config.maxCallDepth with shallow | deep
      · rw [activate_succ remaining site args receiver stopped shallow]
        cases handles : isErrorHandler site.name with
        | false =>
          obtain ⟨xs, hx⟩ := runHandler_course (callsWith_sound remaining m.maxHops) ih site args
            receiver m hosts
          exact ⟨xs, .run stopped id shallow handles hx⟩
        | true =>
          exact runErrorHandler_course (callsWith_sound remaining m.maxHops) ih id site args
            receiver m hosts stopped shallow handles
      · rw [activate_overflow site args receiver stopped (.inr deep)]
        exact ⟨[], .overflow stopped (.inr deep)⟩

end Lingo
