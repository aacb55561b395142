import Lingo.Proofs.Activation
import Lingo.Proofs.Entry

/-!
# How tasks end

`Ends` says how a task ends, in the terms of the interpreter's own checks: a call
of a handler ends as its frame does, a frame as its next instruction and then
the rest of it do, and a call that the host forwards as the call by name does that
it comes to. It counts the instructions of a frame, which have their limit, and
nothing else; being inductive, it holds only of tasks that come to their end.

What happens on the way is a tree of `Happening`s: an activation consists of the
instructions of its frame, and an instruction of the changes it makes, among them its
writes with a key, and the activations it starts.

* `Ends.steady`: what a task keeps;
* `Ends.bounded`: how many frames there are at any moment of a task, and how many
  instructions of its own each activation within it executes.
-/

namespace Lingo

open Machine
open Host (perform)

/-! ## Trees of happenings -/

/-- What happens to a machine at a moment, and what that consists of, in order. -/
inductive Happening where
  | change (machine : Machine)
  /-- A write with a key to the property list in a cell. -/
  | write (machine : Machine) (cell : Nat) (key : Value)
  | instruction (machine : Machine) (i : Instruction) (parts : List Happening)
  | activation (machine : Machine) (site : HandlerSite) (parts : List Happening)

namespace Happening

/-- The machine just before. -/
def machine : Happening → Machine
  | change m | write m _ _ | instruction m _ _ | activation m _ _ => m

def parts : Happening → List Happening
  | change _ | write _ _ _ => []
  | instruction _ _ parts | activation _ _ parts => parts

def isInstruction : Happening → Bool
  | instruction _ _ _ => true
  | _ => false

def isActivation : Happening → Bool
  | activation _ _ _ => true
  | _ => false

/-- How many instructions it consists of, not counting those of activations
further down. -/
def ownSteps (x : Happening) : Nat :=
  x.parts.countP isInstruction

/-- Something that happens in a run, at whatever depth. -/
inductive Within : Happening → List Happening → Prop
  | here {x : Happening} {run : List Happening} (h : x ∈ run) : Within x run
  | inner {x y : Happening} {run : List Happening} (hy : y ∈ run) (h : Within x y.parts) :
    Within x run

theorem Within.of_cons {x y : Happening} {run : List Happening} (h : x.Within (y :: run)) :
    x = y ∨ x.Within y.parts ∨ x.Within run := by
  cases h with
  | here h =>
    rcases List.mem_cons.mp h with rfl | h
    · exact .inl rfl
    · exact .inr (.inr (.here h))
  | inner hz h =>
    rcases List.mem_cons.mp hz with rfl | hz
    · exact .inr (.inl h)
    · exact .inr (.inr (.inner hz h))

theorem Within.of_append {x : Happening} {xs ys : List Happening} (h : x.Within (xs ++ ys)) :
    x.Within xs ∨ x.Within ys := by
  cases h with
  | here h => exact (List.mem_append.mp h).imp .here .here
  | inner hz h => exact (List.mem_append.mp hz).imp (.inner · h) (.inner · h)

theorem Within.append_left {x : Happening} {xs : List Happening} (h : x.Within xs)
    (ys : List Happening) : x.Within (xs ++ ys) := by
  cases h with
  | here h => exact .here (List.mem_append_left ys h)
  | inner hz h => exact .inner (List.mem_append_left ys hz) h

theorem Within.append_right {x : Happening} {ys : List Happening} (h : x.Within ys)
    (xs : List Happening) : x.Within (xs ++ ys) := by
  cases h with
  | here h => exact .here (List.mem_append_right xs h)
  | inner hz h => exact .inner (List.mem_append_right xs hz) h

theorem not_within_nil (x : Happening) : ¬ x.Within [] := by
  rintro (h | ⟨h, -⟩) <;> cases h

end Happening

/-- At any moment of a run there are at most so many frames, and every activation
within it executes at most so many instructions of its own. -/
structure Bounded (frames steps : Nat) (run : List Happening) : Prop where
  frames : ∀ x : Happening, x.Within run → x.machine.depth ≤ frames
  steps : ∀ x : Happening, x.Within run → x.isActivation = true → x.ownSteps ≤ steps

namespace Bounded

variable {frames steps : Nat}

theorem nil : Bounded frames steps [] :=
  ⟨fun x h => absurd h x.not_within_nil, fun x h => absurd h x.not_within_nil⟩

theorem cons {x : Happening} {run : List Happening} (frame : x.machine.depth ≤ frames)
    (step : x.isActivation = true → x.ownSteps ≤ steps) (parts : Bounded frames steps x.parts)
    (rest : Bounded frames steps run) : Bounded frames steps (x :: run) where
  frames y h := by
    rcases h.of_cons with rfl | h | h
    · exact frame
    · exact parts.frames y h
    · exact rest.frames y h
  steps y h := by
    rcases h.of_cons with rfl | h | h
    · exact step
    · exact parts.steps y h
    · exact rest.steps y h

theorem change {m : Machine} (h : m.depth ≤ frames) : Bounded frames steps [.change m] :=
  cons h (fun h => nomatch h) nil nil

theorem write {m : Machine} (h : m.depth ≤ frames) (cell : Nat) (key : Value) :
    Bounded frames steps [.write m cell key] :=
  cons h (fun h => nomatch h) nil nil

theorem instruction {m : Machine} (h : m.depth ≤ frames) (i : Instruction)
    {parts run : List Happening} (hp : Bounded frames steps parts)
    (rest : Bounded frames steps run) : Bounded frames steps (.instruction m i parts :: run) :=
  cons h (fun h => nomatch h) hp rest

theorem append {xs ys : List Happening} (hx : Bounded frames steps xs)
    (hy : Bounded frames steps ys) : Bounded frames steps (xs ++ ys) :=
  ⟨fun x h => h.of_append.elim (hx.frames x) (hy.frames x),
    fun x h => h.of_append.elim (hx.steps x) (hy.steps x)⟩

end Bounded

/-! ## Tasks -/

/-- What the interpreter may be at: an action that is given its calls, or the
rest of the running handler `name`, which may execute `remaining` of its `limit`
of instructions more. -/
inductive Task : Type → Type 1
  | act {α : Type} (a : Calls → Action α) : Task α
  | frame (name : String) (limit remaining : Nat) : Task Value

/-- The machine in which a handler starts: handlers that handle errors are
counted. -/
def Machine.handling (m : Machine) (site : HandlerSite) : Machine :=
  if isErrorHandler site.name then { m with errorHandlers := m.errorHandlers + 1 } else m

/-- The machine in which a handler ends. -/
def Machine.handled (m : Machine) (site : HandlerSite) : Machine :=
  if isErrorHandler site.name then { m with errorHandlers := m.errorHandlers - 1 } else m

/-- How a task ends that starts from a machine, and what happens until then. -/
inductive Ends : {α : Type} → Task α → Machine → List Happening → Except Fault α × Machine → Prop
  | pure {α : Type} (v : α) (m : Machine) : Ends (.act fun _ => pure v) m [] (.ok v, m)
  | throw {α : Type} (fault : Fault) (m : Machine) :
    Ends (.act fun _ => (throw fault : Action α)) m [] (.error fault, m)
  | read {α : Type} {f : Calls → Machine → Action α} {m : Machine} {run : List Happening}
    {e : Except Fault α × Machine} (h : Ends (.act fun c => f c m) m run e) :
    Ends (.act fun c => get >>= f c) m run e
  | next {α β : Type} {a : Calls → Action α} {f : Calls → α → Action β} {m m₁ : Machine}
    {xs ys : List Happening} {v : α} {e : Except Fault β × Machine}
    (ha : Ends (.act a) m xs (.ok v, m₁)) (hf : Ends (.act fun c => f c v) m₁ ys e) :
    Ends (.act fun c => a c >>= f c) m (xs ++ ys) e
  | skip {α β : Type} {a : Calls → Action α} {f : Calls → α → Action β} {m m₁ : Machine}
    {xs : List Happening} {fault : Fault} (ha : Ends (.act a) m xs (.error fault, m₁)) :
    Ends (.act fun c => a c >>= f c) m xs (.error fault, m₁)
  | work {α : Type} {u : Update α} (h : Primitive True u) (keeps : Keeping u) (m : Machine) :
    Ends (.act fun _ => sure u) m [.change m] (.ok (u m).1, (u m).2)
  | write (cell : Nat) (key : Value) (f : String → Bindings Value → Bindings Value) (m : Machine) :
    Ends (.act fun _ => sure (onMemory (PropListMethod.writeKey cell key f))) m
      [.write m cell key] (.ok (), (onMemory (PropListMethod.writeKey cell key f) m).2)
  | stop (m : Machine) :
    Ends (.act fun _ => sure (setStopped true)) m [.change m] (.ok (), (setStopped true m).2)
  | contain {α : Type} {a : Calls → Action α} {m m₁ : Machine} {xs : List Happening} {v : α}
    (message : Fault → String) (ha : Ends (.act a) m xs (.ok v, m₁)) :
    Ends (.act fun c => sure (contained (a c) message)) m xs (.ok (some v), m₁)
  | containFault {α : Type} {a : Calls → Action α} {m m₁ : Machine} {xs : List Happening}
    {fault : Fault} (message : Fault → String) (ha : Ends (.act a) m xs (.error fault, m₁)) :
    Ends (.act fun c => sure (contained (a c) message)) m (xs ++ [.change m₁])
      (.ok none, (stopWith (message fault) m₁).2)
  /-- A call that the host forwards is a call by name. -/
  | reenter {name : String} {args : Array Value} {m : Machine} {run : List Happening}
    {e : Except Fault Value × Machine} (h : Ends (.act fun c => callHandler c name args) m run e) :
    Ends (.act fun c => c.reenter name args) m run e
  | stopped {site : HandlerSite} {args : Array Value} {receiver : Value} {m : Machine}
    (h : m.stopped = true) :
    Ends (.act fun c => c.activate site args receiver) m [] (.ok .void, m)
  | overflow {site : HandlerSite} {args : Array Value} {receiver : Value} {m : Machine}
    (running : m.stopped = false) (deep : m.config.maxCallDepth ≤ m.depth) :
    Ends (.act fun c => c.activate site args receiver) m []
      (.error (.callStackOverflow site.name m.config.maxCallDepth), m)
  | nested {site : HandlerSite} {args : Array Value} {receiver : Value} {m : Machine}
    (running : m.stopped = false) (shallow : m.depth < m.config.maxCallDepth)
    (handles : isErrorHandler site.name = true) (h : 0 < m.errorHandlers) :
    Ends (.act fun c => c.activate site args receiver) m [.change m]
      (.ok .void, (report .debug .call ("skipping nested " ++ site.name) [] m).2)
  | activate {site : HandlerSite} {args : Array Value} {receiver : Value} {m m₁ : Machine}
    {call : CallInfo} {own : List Happening} {e : Except Fault Value × Machine}
    (running : m.stopped = false) (shallow : m.depth < m.config.maxCallDepth)
    (outermost : isErrorHandler site.name = true → m.errorHandlers = 0)
    (hs : enterHandler (Frame.enter site args receiver) (m.handling site) = (call, m₁))
    (h : Ends (.frame site.name m₁.config.stepLimit m₁.config.stepLimit) m₁ own e) :
    Ends (.act fun c => c.activate site args receiver) m
      [.activation m site (own ++ [.change e.2])]
      (e.1, (leaveHandler call e.1 e.2).2.handled site)
  | done {name : String} {limit remaining : Nat} {m : Machine} (hn : m.next? = none) :
    Ends (.frame name limit remaining) m [.change m] (.ok (takeResult m).1, (takeResult m).2)
  | exhausted {name : String} {limit : Nat} {m : Machine} {frame : Frame} {i : Instruction}
    (hn : m.next? = some (frame, i)) :
    Ends (.frame name limit 0) m [] (.error (.stepLimitExceeded name i.offset limit), m)
  | step {name : String} {limit remaining : Nat} {m m₁ : Machine} {frame : Frame}
    {i : Instruction} {xs ys : List Happening} {e : Except Fault Value × Machine}
    (hn : m.next? = some (frame, i))
    (hi : Ends (.act fun c => Step.execute c i) (fetch frame i m).2 xs (.ok (), m₁))
    (hr : Ends (.frame name limit remaining) m₁ ys e) :
    Ends (.frame name limit (remaining + 1)) m (.instruction m i xs :: ys) e
  | fault {name : String} {limit remaining : Nat} {m m₁ : Machine} {frame : Frame}
    {i : Instruction} {xs : List Happening} {fault : Fault} (hn : m.next? = some (frame, i))
    (hi : Ends (.act fun c => Step.execute c i) (fetch frame i m).2 xs (.error fault, m₁)) :
    Ends (.frame name limit (remaining + 1)) m [.instruction m i xs] (.error fault, m₁)

/-! ## Starts and ends of handlers -/

section

variable {site : HandlerSite} {args : Array Value} {receiver : Value} {m m₁ m₂ : Machine}
  {call : CallInfo}

theorem handling_ordinary (ordinary : isErrorHandler site.name = false) : m.handling site = m := by
  rw [handling, ordinary, if_neg Bool.false_ne_true]

theorem handling_first (handles : isErrorHandler site.name = true) (first : m.errorHandlers = 0) :
    m.handling site = { m with errorHandlers := 1 } := by
  rw [handling, handles, if_pos rfl, first]

theorem handled_ordinary (ordinary : isErrorHandler site.name = false) : m.handled site = m := by
  rw [handled, ordinary, if_neg Bool.false_ne_true]

theorem handled_error (handles : isErrorHandler site.name = true) :
    m.handled site = { m with errorHandlers := m.errorHandlers - 1 } := by
  rw [handled, handles, if_pos rfl]

/-- At most the number of error handlers differs. -/
theorem handling_eq (m : Machine) (site : HandlerSite) :
    ∃ n, m.handling site = { m with errorHandlers := n } := by
  unfold handling
  split
  · exact ⟨_, rfl⟩
  · exact ⟨m.errorHandlers, rfl⟩

theorem handled_eq (m : Machine) (site : HandlerSite) :
    ∃ n, m.handled site = { m with errorHandlers := n } := by
  unfold handled
  split
  · exact ⟨_, rfl⟩
  · exact ⟨m.errorHandlers, rfl⟩

/-- The machine in which the frame of a handler starts. -/
theorem enterHandler_started
    (hs : enterHandler (Frame.enter site args receiver) (m.handling site) = (call, m₁)) :
    m₁.hosts = m.hosts ∧ m₁.config = m.config ∧ m₁.depth = m.depth + 1 := by
  obtain ⟨_, log, events, he, -⟩ :=
    enterHandler_eq (Frame.enter site args receiver) (m.handling site)
  obtain ⟨-, rfl⟩ := Prod.mk.inj (hs.symm.trans he)
  unfold handling
  split <;> exact ⟨rfl, rfl, rfl⟩

/-- A handler leaves the frames of its callers alone. -/
theorem Steady.activation (outcome : Except Fault Value)
    (outermost : isErrorHandler site.name = true → m.errorHandlers = 0)
    (hs : enterHandler (Frame.enter site args receiver) (m.handling site) = (call, m₁))
    (h : Steady True True m₁ m₂) :
    Steady False True m ((leaveHandler call outcome m₂).2.handled site) := by
  obtain ⟨_, log, events, he, -⟩ :=
    enterHandler_eq (Frame.enter site args receiver) (m.handling site)
  obtain ⟨log', events', hl, -⟩ := leaveHandler_eq call outcome m₂
  obtain ⟨-, rfl⟩ := Prod.mk.inj (hs.symm.trans he)
  have left : Steady False True (m.handling site) (leaveHandler call outcome m₂).2 := by
    rw [hl]
    exact h.bracket
  cases handles : isErrorHandler site.name with
  | false =>
    rw [handling_ordinary handles] at left
    rw [handled_ordinary handles]
    exact left
  | true =>
    have first := outermost handles
    rw [handling_first handles first] at left
    rw [handled_error handles]
    exact left.handling first

end

/-! ## What tasks keep -/

theorem stopWith_steady (message : String) (m : Machine) :
    Steady True True m (stopWith message m).2 :=
  ((report_noted _ _ _ _ m).steady fun _ => rfl).trans (stop_steady _)

/-- Whatever a task does, it keeps the frames but for the running handler's. -/
theorem Ends.steady {α : Type} {t : Task α} {m : Machine} {run : List Happening}
    {e : Except Fault α × Machine} (h : Ends t m run e) : Steady True True m e.2 := by
  induction h with
  | pure v m => exact .refl m
  | throw fault m => exact .refl m
  | read _ ih => exact ih
  | next _ _ iha ihf => exact iha.trans ihf
  | skip _ ih => exact ih
  | work h _ m => exact h.steady m
  | write cell key f m => exact (Primitive.writeKey True cell key f).steady m
  | stop m => exact stop_steady m
  | contain _ _ ih => exact ih
  | containFault message _ ih => exact ih.trans (stopWith_steady _ _)
  | reenter _ ih => exact ih
  | stopped => exact .refl _
  | overflow => exact .refl _
  | nested => exact (report_noted _ _ _ _ _).steady fun _ => rfl
  | @activate site args receiver m m₁ call own e running shallow outermost hs _ ih =>
    have kept := (Steady.activation e.1 outermost hs ih).mono (fun _ => trivial) id
    dsimp only
    exact kept
  | done => exact takeResult_steady _
  | exhausted => exact .refl _
  | step hn _ _ ihi ihr => exact ((fetch_steady hn).trans ihi).trans ihr
  | fault hn _ ih => exact (fetch_steady hn).trans ih

/-! ## What tasks take -/

/-- There are at most `frames` frames, and handlers that are called in the machine
will not make them more. An activation may execute `steps` instructions. -/
structure Roomy (frames steps : Nat) (m : Machine) : Prop where
  maxCallDepth : m.config.maxCallDepth ≤ frames
  depth : m.depth ≤ frames
  stepLimit : m.config.stepLimit = steps

theorem Roomy.steady {frames steps : Nat} {m m₁ : Machine} (h : Roomy frames steps m)
    (hs : Steady True True m m₁) : Roomy frames steps m₁ where
  maxCallDepth := hs.maxCallDepth ▸ h.maxCallDepth
  depth := Nat.le_trans (Nat.le_of_eq hs.depth) h.depth
  stepLimit := hs.stepLimit.trans h.stepLimit

/-- The instructions that the rest of a frame may execute are all that it
executes. -/
def Task.Affords {α : Type} : Task α → List Happening → Prop
  | .act _, _ => True
  | .frame _ _ remaining, run => run.countP Happening.isInstruction ≤ remaining

/-- While a task goes on, there are never more frames than there may be, and no
activation executes more instructions than it may. -/
theorem Ends.bounded {α : Type} {t : Task α} {m : Machine} {run : List Happening}
    {e : Except Fault α × Machine} (h : Ends t m run e) {frames steps : Nat}
    (roomy : Roomy frames steps m) : t.Affords run ∧ Bounded frames steps run := by
  induction h with
  | pure | throw | stopped | overflow => exact ⟨trivial, .nil⟩
  | read _ ih | skip _ ih | contain _ _ ih | reenter _ ih => exact ⟨trivial, (ih roomy).2⟩
  | next ha _ iha ihf =>
    exact ⟨trivial, (iha roomy).2.append (ihf (roomy.steady ha.steady)).2⟩
  | work | stop | nested => exact ⟨trivial, .change roomy.depth⟩
  | write cell key => exact ⟨trivial, .write roomy.depth cell key⟩
  | containFault _ ha ih =>
    exact ⟨trivial, (ih roomy).2.append (.change (roomy.steady ha.steady).depth)⟩
  | @activate site args receiver m m₁ call own e running shallow outermost hs ha ih =>
    obtain ⟨-, config, depth⟩ := enterHandler_started hs
    have started : Roomy frames steps m₁ := by
      refine ⟨config ▸ roomy.maxCallDepth, ?_, config ▸ roomy.stepLimit⟩
      rw [depth]
      exact Nat.le_trans shallow roomy.maxCallDepth
    obtain ⟨affords, inside⟩ := ih started
    have ended := started.steady ha.steady
    have few : (own ++ [Happening.change e.2]).countP Happening.isInstruction ≤ steps := by
      rw [List.countP_append, List.countP_singleton, if_neg (by simp [Happening.isInstruction])]
      exact started.stepLimit ▸ affords
    exact ⟨trivial, .cons roomy.depth (fun _ => few) (inside.append (.change ended.depth)) .nil⟩
  | done => exact ⟨Nat.zero_le _, .change roomy.depth⟩
  | exhausted => exact ⟨Nat.zero_le _, .nil⟩
  | step hn hi _ ihi ihr =>
    have fetched := roomy.steady (fetch_steady hn)
    obtain ⟨affords, rest⟩ := ihr (fetched.steady hi.steady)
    refine ⟨?_, .instruction roomy.depth _ (ihi fetched).2 rest⟩
    show List.countP _ (_ :: _) ≤ _ + 1
    rw [List.countP_cons_of_pos rfl]
    exact Nat.succ_le_succ affords
  | fault hn hi ih =>
    have fetched := roomy.steady (fetch_steady hn)
    refine ⟨?_, .instruction roomy.depth _ (ih fetched).2 .nil⟩
    show List.countP _ [_] ≤ _ + 1
    rw [List.countP_cons_of_pos rfl]
    exact Nat.succ_le_succ (Nat.zero_le _)

end Lingo
