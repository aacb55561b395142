import Lingo.Proofs.Entry
import Lingo.Proofs.History

/-!
# Stopped machines

Until the host starts it again, a stopped machine executes nothing: not in what
is left of the call in which it was stopped, and not in later calls of the host.

A `Session` is what happens while the host makes calls, or stops the machine
itself, without starting it again. `stop_is_final`: every list of turns has its
session, and from the first moment of a session at which the machine is stopped
it stays so, and no instruction is executed.
-/

namespace Lingo

open Machine
open Host (perform)

/-- What the host does with a machine, other than to start it again. -/
inductive Turn where
  | enter (entry : Entry)
  | stop

/-- The machine after a turn. -/
def Turn.take : Turn → Machine → Machine
  | enter entry, m => (perform entry.action m).2
  | stop, m => (setStopped true m).2

/-- The machine after some turns. -/
def afterTurns (turns : List Turn) (m : Machine) : Machine :=
  turns.foldl (fun m turn => turn.take m) m

/-- By which moments a turn leads from a machine to another. -/
inductive TurnCourse : Turn → Machine → List Moment → Machine → Prop
  | enter {entry : Entry} {m : Machine} {xs : List Moment} {e : Except Fault Value × Machine}
    (h : Follows (ActivationCourse (m.config.maxCallDepth - m.depth)) entry.body m xs e) :
    TurnCourse (.enter entry) m xs e.2
  | stop (m : Machine) : TurnCourse .stop m [⟨m, none⟩] (setStopped true m).2

/-- By which moments some turns lead from a machine to another. -/
inductive Session : List Turn → Machine → List Moment → Machine → Prop
  | done (m : Machine) : Session [] m [] m
  | next {turn : Turn} {turns : List Turn} {m m₁ m₂ : Machine} {xs ys : List Moment}
    (h : TurnCourse turn m xs m₁) (hs : Session turns m₁ ys m₂) :
    Session (turn :: turns) m (xs ++ ys) m₂

/-! ## Sessions are runs -/

theorem TurnCourse.toRun {turn : Turn} {m m₁ : Machine} {xs : List Moment}
    (h : TurnCourse turn m xs m₁) : Run m xs m₁ := by
  cases h with
  | enter h => exact Follows.toRun (fun _ _ _ _ _ _ => ActivationCourse.toRun) h
  | stop => exact .beat (.stop m)

theorem Session.toRun {turns : List Turn} {m m₁ : Machine} {xs : List Moment}
    (h : Session turns m xs m₁) : Run m xs m₁ := by
  induction h with
  | done m => exact .done m
  | next h _ ih => exact h.toRun.append ih

/-! ## Every list of turns has its session -/

theorem Entry.ended (entry : Entry) {m : Machine} (hosts : m.hosts = []) :
    Ended True True m (perform entry.action m) := by
  rw [entry.perform_action]
  exact entry.body_routine.sound (callsWith_sound _ m.maxHops) m hosts

theorem Turn.take_steady (turn : Turn) {m : Machine} (hosts : m.hosts = []) :
    Steady True True m (turn.take m) := by
  cases turn with
  | enter entry => exact (entry.ended hosts).steady
  | stop => exact stop_steady m

theorem Turn.course (turn : Turn) {m : Machine} (hosts : m.hosts = []) :
    ∃ xs, TurnCourse turn m xs (turn.take m) := by
  cases turn with
  | enter entry =>
    obtain ⟨xs, hx⟩ := entry.body_routine.follows (callsWith_sound _ m.maxHops)
      (activate_course (m.config.maxCallDepth - m.depth)) m hosts
    rw [Turn.take, entry.perform_action]
    exact ⟨xs, .enter hx⟩
  | stop => exact ⟨_, .stop m⟩

theorem afterTurns_steady (turns : List Turn) {m : Machine} (hosts : m.hosts = []) :
    Steady True True m (afterTurns turns m) := by
  induction turns generalizing m with
  | nil => exact .refl m
  | cons turn turns ih =>
    have first := turn.take_steady hosts
    exact first.trans (ih (first.hosts.trans hosts))

theorem session_exists (turns : List Turn) {m : Machine} (hosts : m.hosts = []) :
    ∃ moments, Session turns m moments (afterTurns turns m) := by
  induction turns generalizing m with
  | nil => exact ⟨[], .done m⟩
  | cons turn turns ih =>
    obtain ⟨xs, hx⟩ := turn.course hosts
    obtain ⟨ys, hy⟩ := ih ((turn.take_steady hosts).hosts.trans hosts)
    exact ⟨xs ++ ys, .next hx hy⟩

/-- Once a machine is stopped, nothing but the host starts it again or has it
execute an instruction; and all handlers that a turn started are over after
it. -/
theorem stop_is_final (turns : List Turn) {m : Machine} (hosts : m.hosts = []) :
    (∃ moments, Session turns m moments (afterTurns turns m)) ∧
      (afterTurns turns m).frames.length = m.frames.length ∧
      ∀ moments m', Session turns m moments m' →
        (m.tracer = some .record → m'.recorded = (executed moments).reverse ++ m.recorded) ∧
        ∀ past x future, moments = past ++ x :: future → x.machine.stopped = true →
          m'.stopped = true ∧
          ∀ y ∈ x :: future, y.machine.stopped = true ∧ y.executes = none := by
  refine ⟨session_exists turns hosts, (afterTurns_steady turns hosts).depth, fun moments m' h => ?_⟩
  refine ⟨h.toRun.recorded, fun past x future split stopped => ?_⟩
  have run := h.toRun
  rw [split] at run
  exact run.from_moment.stopped stopped

theorem stop_is_final_halt :
    let turns := [Turn.enter (.callBuiltin "halt" #[]), .enter (.run askSite #[] none)]
    (∃ moments, Session turns {} moments (afterTurns turns {})) ∧
      (afterTurns turns {}).frames.length = 0 ∧ (afterTurns turns {}).stopped = true :=
  have final := stop_is_final [.enter (.callBuiltin "halt" #[]), .enter (.run askSite #[] none)]
    (m := {}) rfl
  ⟨final.1, final.2.1, by decide +kernel⟩

end Lingo
