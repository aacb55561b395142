import Lingo.Proofs.Visit

/-!
# Error handlers do not nest

A machine counts the active handlers that handle errors apart from its frames,
and skips such a handler while the count is not 0. `Counted` says that the count
is right and at most 1.

* `Ends.counted`: a task that starts from such a machine keeps it so, at every
  moment and however it ends. A handler that starts is counted with its frame,
  and one that ends is discounted with it;
* `error_handlers_never_nest`: so it is for all that a host does with a machine
  from its start or from a reset on.
-/

namespace Lingo

open Machine
open Host (perform)

namespace Machine

/-- How many of the active handlers handle errors. -/
def activeErrorHandlers (m : Machine) : Nat :=
  m.frames.countP fun f => isErrorHandler f.site.name

/-- The active handlers that handle errors are counted, and there is at most
one. -/
structure Counted (m : Machine) : Prop where
  counted : m.errorHandlers = m.activeErrorHandlers
  single : m.activeErrorHandlers ≤ 1

/-- No handler is active, and none is counted. -/
structure Fresh (m : Machine) : Prop where
  frames : m.frames = []
  errorHandlers : m.errorHandlers = 0

theorem reset_fresh (m : Machine) : (reset m).2.Fresh :=
  ⟨rfl, rfl⟩

theorem Fresh.counted {m : Machine} (h : m.Fresh) : m.Counted := by
  have none : m.activeErrorHandlers = 0 := by simp [activeErrorHandlers, h.frames]
  constructor
  · rw [h.errorHandlers, none]
  · omega

/-- What is counted is found in the origins of the frames. -/
theorem activeErrorHandlers_eq (m : Machine) :
    m.activeErrorHandlers = m.origins.countP fun origin => isErrorHandler origin.1.name := by
  simp only [activeErrorHandlers, origins, List.countP_map, Function.comp_def, Frame.origin]

theorem Counted.of_same {m m₁ : Machine} (h : m.Counted) (origins : m₁.origins = m.origins)
    (errorHandlers : m₁.errorHandlers = m.errorHandlers) : m₁.Counted := by
  have same : m₁.activeErrorHandlers = m.activeErrorHandlers := by
    rw [activeErrorHandlers_eq, activeErrorHandlers_eq, origins]
  constructor
  · rw [errorHandlers, same]
    exact h.counted
  · rw [same]
    exact h.single

end Machine

open Happening (Always)

/-! ## One step and one handler -/

variable {m m₁ : Machine}

theorem Machine.Counted.fetch {frame : Frame} {i : Instruction} (h : m.Counted)
    (hn : m.next? = some (frame, i)) : (fetch frame i m).2.Counted :=
  h.of_same (fetch_origins hn) (fetch_steady hn).errorHandlers

/-- A handler starts, and is counted if it handles errors. It does so only if no
other such handler is active. -/
theorem Machine.Counted.entered {site : HandlerSite} {args : Array Value} {receiver : Value}
    {call : CallInfo} (h : m.Counted)
    (outermost : isErrorHandler site.name = true → m.errorHandlers = 0)
    (hs : enterHandler (Frame.enter site args receiver) (m.handling site) = (call, m₁)) :
    m₁.Counted := by
  obtain ⟨origins, errorHandlers⟩ := enterHandler_origins hs
  have before := h.counted
  have single := h.single
  have now : m₁.activeErrorHandlers =
      m.activeErrorHandlers + if isErrorHandler site.name then 1 else 0 := by
    rw [activeErrorHandlers_eq, origins, List.countP_cons, ← activeErrorHandlers_eq]
  cases handles : isErrorHandler site.name with
  | false =>
    rw [handles, if_neg Bool.false_ne_true] at now
    rw [handling_ordinary handles] at errorHandlers
    constructor <;> omega
  | true =>
    have first := outermost handles
    rw [handles, if_pos rfl] at now
    rw [handling_first handles first] at errorHandlers
    -- `errorHandlers` says 1, and there was no error handler before.
    have one : m₁.errorHandlers = 1 := errorHandlers
    constructor <;> omega

/-! ## Tasks -/

theorem Ends.keeps_counted {α : Type} {t : Task α} {run : List Happening}
    {e : Except Fault α × Machine} (h : Ends t m run e) (hm : m.Counted) : e.2.Counted :=
  hm.of_same h.origins h.steady.errorHandlers

/-- At every moment of a task, at whatever depth, the error handlers are
counted. -/
theorem Ends.counted {α : Type} {t : Task α} {run : List Happening}
    {e : Except Fault α × Machine} (h : Ends t m run e) (hm : m.Counted) :
    Always Counted run := by
  induction h with
  | pure | throw | stopped | overflow | exhausted => exact .nil
  | read _ ih | skip _ ih | contain _ _ ih | reenter _ ih => exact ih hm
  | next ha _ iha ihf => exact .append (iha hm) (ihf (ha.keeps_counted hm))
  | work | stop | nested | done => exact .change hm
  | write cell key => exact .write hm cell key
  | containFault _ ha ih => exact .append (ih hm) (.change (ha.keeps_counted hm))
  | activate _ _ outermost hs ha ih =>
    have started := hm.entered outermost hs
    exact .cons hm (.append (ih started) (.change (ha.keeps_counted started))) .nil
  | step hn hi _ ihi ihr =>
    have fetched := hm.fetch hn
    exact .cons hm (ihi fetched) (ihr (hi.keeps_counted fetched))
  | fault hn _ ih => exact .cons hm (ih (hm.fetch hn)) .nil

/-! ## Visits -/

theorem VisitCourse.counted {visit : Visit} {run : List Happening} (h : VisitCourse visit m run m₁)
    (hm : m.Counted) : m₁.Counted ∧ Always Counted run := by
  cases h with
  | enter h => exact ⟨h.keeps_counted hm, .cons hm .nil (h.counted hm)⟩
  | edit edits =>
    refine ⟨?_, .change hm⟩
    by_cases hr : visit = .reset
    · rw [hr]
      exact (reset_fresh m).counted
    · obtain ⟨frames, errorHandlers⟩ := visit.take_frames edits hr m
      exact hm.of_same (congrArg (List.map Frame.origin) frames) errorHandlers

theorem History.counted {visits : List Visit} {run : List Happening} (h : History visits m run m₁)
    (hm : m.Counted) : m₁.Counted ∧ Always Counted run := by
  induction h with
  | done m => exact ⟨hm, .nil⟩
  | next h _ ih =>
    obtain ⟨between, first⟩ := h.counted hm
    obtain ⟨last, rest⟩ := ih between
    exact ⟨last, .append first rest⟩

/-- Whatever a host does with a machine that is fresh or was reset: at every
moment, between the visits of the host and within them, the machine has counted
its active handlers that handle errors, and there is at most one. Every list of
visits has its history if the functions of the host forward no call in a
circle. -/
theorem error_handlers_never_nest (visits : List Visit)
    (start : m.Fresh ∨ ∃ before, m = (Machine.reset before).2) :
    (∀ run m', History visits m run m' →
        m'.Counted ∧ ∀ x : Happening, x.Within run → x.machine.Counted) ∧
      ((∀ past future, visits = past ++ future → ForwardsEnd (afterVisits past m).hosts) →
        ∃ run, History visits m run (afterVisits visits m)) := by
  have fresh : m.Fresh := by
    rcases start with fresh | ⟨before, rfl⟩
    · exact fresh
    · exact reset_fresh before
  exact ⟨fun run m' h => h.counted fresh.counted, history_exists visits⟩

/-- A movie whose error handler calls itself. -/
def hookMovie : Library where
  names := ⟨#["alertHook"]⟩
  scripts := #[{
    member := 1
    kind := .movie
    handlers := #[{
      nameId := 0
      code := #[⟨0, .pushArgList, 0x43, 0⟩, ⟨2, .extCall, 0x57, 0⟩] }] }]

def hookMachine : Machine where
  movie := some hookMovie

/-- The call of the error handler within itself is skipped. -/
theorem error_handlers_never_nest_hook :
    let visits := [Visit.enter (.call "AlertHook" #[]), .reset]
    "skipping nested alertHook" ∈ (afterVisits visits hookMachine).log.map LogEntry.message ∧
      (∃ run, History visits hookMachine run (afterVisits visits hookMachine)) ∧
      ∀ run m', History visits hookMachine run m' →
        m'.Counted ∧ ∀ x : Happening, x.Within run → x.machine.Counted := by
  intro visits
  have never := error_handlers_never_nest (m := hookMachine) visits (.inl ⟨rfl, rfl⟩)
  refine ⟨by decide +kernel, never.2 fun past future split => ?_, never.1⟩
  have none : (afterVisits past hookMachine).hosts = [] := by
    rcases past with _ | ⟨first, _ | ⟨second, _ | _⟩⟩
    · rfl
    · obtain ⟨rfl, -⟩ := List.cons.inj split
      decide +kernel
    · obtain ⟨rfl, rest⟩ := List.cons.inj split
      obtain ⟨rfl, -⟩ := List.cons.inj rest
      decide +kernel
    · simp [visits] at split
  rw [none]
  exact fun key => ⟨0, fun name h => nomatch h⟩

end Lingo
