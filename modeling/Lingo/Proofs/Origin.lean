import Lingo.Proofs.Happening

/-!
# What a frame keeps

The handler of a frame, its arguments and its receiver are given with the call,
and nothing changes them as long as the frame is there: neither its own
instructions nor the calls that it makes. `Ends.origins` says so of all tasks,
from what the primitive changes do.

`Always P run` says that a property of machines holds at every moment of a run.
-/

namespace Lingo

open Machine
open Host (perform)

/-- A handler, the arguments of its call, and the receiver. -/
abbrev Origin := HandlerSite × Array Value × Value

/-- What a frame was entered with. -/
def Frame.origin (f : Frame) : Origin :=
  (f.site, f.args, f.receiver)

/-- The active handlers with their arguments and receivers, innermost first. -/
def Machine.origins (m : Machine) : List Origin :=
  m.frames.map Frame.origin

@[simp] theorem Frame.origin_enter (site : HandlerSite) (args : Array Value) (receiver : Value) :
    (Frame.enter site args receiver).origin = (site, args, receiver) := rfl

/-! ## Changes of frames -/

theorem FrameChange.origin {g : Frame → Frame} (hg : FrameChange g) (f : Frame) :
    (g f).origin = f.origin := by
  cases hg with
  | swap =>
    unfold Frame.swap
    split <;> rfl
  | setLocal i v =>
    show (f.setLocal i v).origin = f.origin
    unfold Frame.setLocal
    split <;> rfl
  | _ => rfl

theorem Frame.pop_origin (f : Frame) : f.pop.2.origin = f.origin := by
  unfold Frame.pop
  split <;> rfl

variable {m : Machine}

/-- Where the running handler's frame alone changes. -/
theorem origins_of_top {f f' : Frame} {rest : List Frame} (hm : m.frames = f :: rest)
    (h : f'.origin = f.origin) : (f' :: rest).map Frame.origin = m.origins := by
  rw [origins, hm, List.map_cons, List.map_cons, h]

theorem onTop_origins {g : Frame → Frame} (hg : ∀ f, (g f).origin = f.origin) (m : Machine) :
    (m.onTop g).origins = m.origins := by
  unfold Machine.onTop
  split
  · rfl
  · rename_i f rest hm
    exact origins_of_top hm (hg f)

/-- Changes that leave the running handler's frame alone leave all frames alone. -/
theorem Primitive.frames {α : Type} {u : Update α} (h : Primitive False u) (m : Machine) :
    (u m).2.frames = m.frames :=
  have steady : Steady False True m (u m).2 := h.steady m
  steady.frames id

theorem Primitive.origins {α : Type} {touch : Prop} {u : Update α} (h : Primitive touch u)
    (m : Machine) : (u m).2.origins = m.origins := by
  cases h with
  | onTop _ hg => exact onTop_origins hg.origin m
  | pop =>
    unfold Machine.pop
    rw [modifyGet_apply]
    split
    · rfl
    · rename_i f rest hm
      exact origins_of_top hm f.pop_origin
  | popMany _ n =>
    unfold Machine.popMany
    rw [modifyGet_apply]
    split
    · rfl
    · rename_i f rest hm
      exact origins_of_top hm rfl
  | onMemory f => rfl
  | reportShown level target message fields => rfl
  | noteSet kind name value =>
    exact congrArg (List.map Frame.origin) ((Primitive.noteSet kind name value).frames m)
  | bindGlobal name value => rfl
  | setMovieProp name value =>
    exact congrArg (List.map Frame.origin) ((Primitive.setMovieProp name value).frames m)
  | setMemberProp castLib member prop value =>
    exact congrArg (List.map Frame.origin) ((Primitive.setMemberProp castLib member prop value).frames m)
  | pass => rfl

/-! ## The interpreter's own steps -/

theorem fetch_origins {frame : Frame} {i : Instruction} (hn : m.next? = some (frame, i)) :
    (fetch frame i m).2.origins = m.origins := by
  obtain ⟨rest, log, events, hm, he⟩ := fetch_frames hn
  rw [he]
  exact origins_of_top hm rfl

theorem takeResult_origins (m : Machine) : (takeResult m).2.origins = m.origins := by
  unfold Machine.takeResult
  rw [modifyGet_apply]
  split
  · rfl
  · rename_i f rest hm
    exact origins_of_top hm rfl

section

variable {site : HandlerSite} {args : Array Value} {receiver : Value} {m₁ m₂ : Machine}
  {call : CallInfo}

theorem handling_frames (m : Machine) (site : HandlerSite) : (m.handling site).frames = m.frames := by
  unfold handling
  split <;> rfl

theorem handled_frames (m : Machine) (site : HandlerSite) : (m.handled site).frames = m.frames := by
  unfold handled
  split <;> rfl

/-- A handler starts in a frame of its own. -/
theorem enterHandler_origins
    (hs : enterHandler (Frame.enter site args receiver) (m.handling site) = (call, m₁)) :
    m₁.origins = (site, args, receiver) :: m.origins ∧
      m₁.errorHandlers = (m.handling site).errorHandlers := by
  obtain ⟨_, log, events, he, -⟩ :=
    enterHandler_eq (Frame.enter site args receiver) (m.handling site)
  obtain ⟨-, rfl⟩ := Prod.mk.inj (hs.symm.trans he)
  dsimp only
  refine ⟨?_, rfl⟩
  show Frame.origin _ :: (m.handling site).frames.map Frame.origin = _
  rw [handling_frames, Frame.origin_enter]
  rfl

/-- The frame is removed when it ends. -/
theorem leaveHandler_origins (call : CallInfo) (outcome : Except Fault Value) (m : Machine)
    (site : HandlerSite) :
    ((leaveHandler call outcome m).2.handled site).origins = m.origins.tail := by
  obtain ⟨log, events, he, -⟩ := leaveHandler_eq call outcome m
  rw [origins, handled_frames, he]
  exact List.map_tail ..

end

/-! ## Tasks -/

/-- Whatever a task does, the frames that there were keep their handlers, their
arguments and their receivers. -/
theorem Ends.origins {α : Type} {t : Task α} {m : Machine} {run : List Happening}
    {e : Except Fault α × Machine} (h : Ends t m run e) : e.2.origins = m.origins := by
  induction h with
  | pure | throw | stop | stopped | overflow | nested | exhausted => rfl
  | read _ ih | skip _ ih | contain _ _ ih | containFault _ _ ih | reenter _ ih => exact ih
  | next _ _ iha ihf => exact ihf.trans iha
  | work h _ m => exact h.origins m
  | write cell key f m => exact (Primitive.writeKey True cell key f).origins m
  | activate _ _ _ hs _ ih =>
    rw [leaveHandler_origins, ih, (enterHandler_origins hs).1]
    rfl
  | done => exact takeResult_origins _
  | step hn _ _ ihi ihr => exact (ihr.trans ihi).trans (fetch_origins hn)
  | fault hn _ ih => exact ih.trans (fetch_origins hn)

/-! ## All moments of a run -/

namespace Happening

/-- At every moment of a run, at whatever depth, the machine is so. -/
def Always (P : Machine → Prop) (run : List Happening) : Prop :=
  ∀ x : Happening, x.Within run → P x.machine

namespace Always

variable {P : Machine → Prop}

theorem nil : Always P [] :=
  fun x h => absurd h x.not_within_nil

theorem cons {x : Happening} {run : List Happening} (h : P x.machine) (parts : Always P x.parts)
    (rest : Always P run) : Always P (x :: run) := by
  intro y hy
  rcases hy.of_cons with rfl | hy | hy
  · exact h
  · exact parts y hy
  · exact rest y hy

theorem change (h : P m) : Always P [.change m] :=
  cons h nil nil

theorem write (h : P m) (cell : Nat) (key : Value) : Always P [.write m cell key] :=
  cons h nil nil

theorem append {xs ys : List Happening} (hx : Always P xs) (hy : Always P ys) :
    Always P (xs ++ ys) :=
  fun x h => h.of_append.elim (hx x) (hy x)

theorem mono {Q : Machine → Prop} (h : ∀ m, P m → Q m) {run : List Happening}
    (hr : Always P run) : Always Q run :=
  fun x hx => h x.machine (hr x hx)

end Always

end Happening

/-- At every moment of a task there are the frames of its start, with their
handlers, arguments and receivers, and perhaps others above them. -/
theorem Ends.origins_suffix {α : Type} {t : Task α} {m : Machine} {run : List Happening}
    {e : Except Fault α × Machine} (h : Ends t m run e) :
    Happening.Always (fun m' => m.origins <:+ m'.origins) run := by
  have here (m : Machine) : m.origins <:+ m.origins := List.suffix_refl _
  induction h with
  | pure | throw | stopped | overflow | exhausted => exact .nil
  | read _ ih | skip _ ih | contain _ _ ih | reenter _ ih => exact ih
  | next ha _ iha ihf => exact .append iha (ha.origins ▸ ihf)
  | work | stop | nested | done => exact .change (here _)
  | write cell key => exact .write (here _) cell key
  | @containFault _ _ _ m₁ _ _ _ ha ih =>
    exact .append ih (.change (ha.origins ▸ here m₁))
  | @activate site args receiver m m₁ call own e _ _ _ hs ha ih =>
    have below : m.origins <:+ m₁.origins := by
      rw [(enterHandler_origins hs).1]
      exact List.suffix_cons _ _
    have inside := ih.mono fun _ h => below.trans h
    exact .cons (here m) (.append inside (.change (ha.origins ▸ below))) .nil
  | step hn hi _ ihi ihr =>
    have fetched := fetch_origins hn
    exact .cons (here _) (fetched ▸ ihi) (fetched ▸ hi.origins ▸ ihr)
  | fault hn _ ih => exact .cons (here _) (fetch_origins hn ▸ ih) .nil

end Lingo
