import Lingo.Proofs.Handles
import Lingo.Proofs.Origin
import Lingo.Proofs.Termination

/-!
# Visits of the host

A `Visit` is anything that the host does with a machine: it has the machine run
something, or it changes what lies outside the frames. Between two visits no
handler is active that was not so before them.

A `History` is what happens during some visits, with the machine as it is
between them. `history_exists`: there is one for every list of visits, if the
functions of the host do not forward calls in a circle.
-/

namespace Lingo

open Machine
open Host (perform)

/-- What the host does with a machine. -/
inductive Visit where
  /-- Has it run something. -/
  | enter (entry : Entry)
  | setStopped (stopped : Bool)
  | reset
  | register (name : String) (f : HostFunction)
  | configure (config : Config)
  /-- Gives it other libraries. -/
  | attach (movie : Option Library) (casts : Option CastLibraries)
  /-- Gives it another tracer, or another counter of events that are passed on. -/
  | watch (tracer : Option Tracer) (passes : Option Nat)
  | setGlobal (name : String) (value : Value)
  | setMovieProp (name : String) (value : Value)
  | setMemberProp (castLib member : Int32) (prop : String) (value : Value)
  /-- Works on the heap of script objects. -/
  | heap (op : HeapOp)
  /-- Makes or changes cells of containers. -/
  | cells (f : Memory → Memory)

namespace Visit

/-- The machine after a visit. -/
def take : Visit → Machine → Machine
  | enter entry, m => (perform entry.action m).2
  | setStopped stopped, m => (Machine.setStopped stopped m).2
  | reset, m => (Machine.reset m).2
  | register name f, m => (Machine.register name f m).2
  | configure config, m => { m with config }
  | attach movie casts, m => { m with movie, casts }
  | watch tracer passes, m => { m with tracer, passes }
  | setGlobal name value, m => (Machine.setGlobal name value m).2
  | setMovieProp name value, m => (Machine.setMovieProp name value m).2
  | setMemberProp castLib member prop value, m =>
    (Machine.setMemberProp castLib member prop value m).2
  | heap op, m => { m with memory := m.memory.modifyHeap fun heap => (op.apply heap).2 }
  | cells f, m => { m with memory := { f m.memory with heap := m.memory.heap } }

/-- Has the machine run something. -/
def Runs : Visit → Prop
  | enter _ => True
  | _ => False

end Visit

/-- The machine after some visits. -/
def afterVisits (visits : List Visit) (m : Machine) : Machine :=
  visits.foldl (fun m visit => visit.take m) m

/-- What happens during a visit, from the machine as the host finds it. -/
inductive VisitCourse : Visit → Machine → List Happening → Machine → Prop
  | enter {entry : Entry} {m : Machine} {run : List Happening} {e : Except Fault Value × Machine}
    (h : Ends (.act entry.body) m run e) : VisitCourse (.enter entry) m (.change m :: run) e.2
  | edit {visit : Visit} (h : ¬ visit.Runs) (m : Machine) :
    VisitCourse visit m [.change m] (visit.take m)

/-- What happens during some visits. -/
inductive History : List Visit → Machine → List Happening → Machine → Prop
  | done (m : Machine) : History [] m [] m
  | next {visit : Visit} {visits : List Visit} {m m₁ m₂ : Machine} {xs ys : List Happening}
    (h : VisitCourse visit m xs m₁) (later : History visits m₁ ys m₂) :
    History (visit :: visits) m (xs ++ ys) m₂

/-! ## Every list of visits has its history -/

theorem Visit.course (visit : Visit) {m : Machine} (hosts : ForwardsEnd m.hosts) :
    ∃ run, VisitCourse visit m run (visit.take m) := by
  cases visit with
  | enter entry =>
    obtain ⟨run, h⟩ := entry.ends hosts
    exact ⟨_, .enter h⟩
  | _ => exact ⟨_, .edit id m⟩

/-- Where the host always has functions that forward their calls to an end. -/
theorem history_exists (visits : List Visit) {m : Machine}
    (hosts : ∀ past future, visits = past ++ future → ForwardsEnd (afterVisits past m).hosts) :
    ∃ run, History visits m run (afterVisits visits m) := by
  induction visits generalizing m with
  | nil => exact ⟨[], .done m⟩
  | cons visit visits ih =>
    obtain ⟨xs, hx⟩ := visit.course (hosts [] _ rfl)
    obtain ⟨ys, hy⟩ := ih (m := visit.take m) fun past future split =>
      hosts (visit :: past) future (congrArg (visit :: ·) split)
    exact ⟨xs ++ ys, .next hx hy⟩

/-! ## What lies within frames -/

/-- Between its runs, nothing but a reset changes the frames, or what is counted
of them. -/
theorem Visit.take_frames {visit : Visit} (edits : ¬ visit.Runs) (keeps : visit ≠ .reset)
    (m : Machine) :
    (visit.take m).frames = m.frames ∧ (visit.take m).errorHandlers = m.errorHandlers := by
  have quiet {α : Type} {u : Update α} (h : Primitive False u) (m : Machine) :
      (u m).2.frames = m.frames ∧ (u m).2.errorHandlers = m.errorHandlers :=
    have steady : Steady False True m (u m).2 := h.steady m
    ⟨h.frames m, steady.errorHandlers⟩
  cases visit with
  | enter entry => exact absurd trivial edits
  | reset => exact absurd rfl keeps
  | setGlobal name value => exact quiet (.noteSet .global name value) m
  | setMovieProp name value => exact quiet (.setMovieProp name value) m
  | setMemberProp castLib member prop value =>
    exact quiet (.setMemberProp castLib member prop value) m
  | _ => exact ⟨rfl, rfl⟩

end Lingo
