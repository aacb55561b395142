import Lingo.Proofs.Activation
import Lingo.Proofs.Entry

/-!
# Limits

The limits of a machine only turn calls that take too much into faults.
`Carries D L a b` says that where the action `a` ends with a value and the
machine goes on, the action `b` ends with the same value and the same machine
from limits that are raised to `D` and `L`.

* `Routine.carries`: routines carry over if the activations that they are given
  do, since nothing that they read depends on the limits;
* `runFrame_carries`: a handler that ends within its instructions does so if it
  has more;
* `activate_carries`: the same of activations and levels of calls;
* `limits_conservative`: what follows for the host.
-/

namespace Lingo

open Machine
open Host (perform)

variable {α : Type} {D L : Nat}

/-! ## Changes and limits -/

theorem onTop_withLimits (m : Machine) (g : Frame → Frame) :
    (m.withLimits D L).onTop g = (m.onTop g).withLimits D L := by
  unfold Machine.onTop
  cases hm : m.frames <;> simp only [withLimits, hm]

/-- An update that neither reads nor changes the limits. -/
def Unlimited (u : Update α) : Prop :=
  ∀ (m : Machine) (D L : Nat), u (m.withLimits D L) = ((u m).1, (u m).2.withLimits D L)

theorem Unlimited.seq {β : Type} {u : Update α} {f : α → Update β} (hu : Unlimited u)
    (hf : ∀ v, Unlimited (f v)) : Unlimited (u >>= f) := by
  intro m D L
  rw [update_bind_apply, update_bind_apply, hu, hf]

theorem Unlimited.look {f : Machine → Update α} (same : ∀ m D L, f (m.withLimits D L) = f m)
    (hf : ∀ m, Unlimited (f m)) : Unlimited (get >>= f) := by
  intro m D L
  rw [get_bind_apply, get_bind_apply, same, hf]

theorem Unlimited.modify {f : Machine → Machine}
    (h : ∀ m D L, f (m.withLimits D L) = (f m).withLimits D L) : Unlimited (modify f) := by
  intro m D L
  exact congrArg (Prod.mk ()) (h m D L)

theorem reportShown_unlimited (level : LogLevel) (target : LogTarget)
    (message : Memory → Option String) (fields : List (String × String)) :
    Unlimited (reportShown level target message fields) :=
  .modify fun _ _ _ => rfl

theorem report_unlimited (level : LogLevel) (target : LogTarget) (message : String)
    (fields : List (String × String)) : Unlimited (report level target message fields) :=
  reportShown_unlimited _ _ _ _

theorem notify_unlimited (event : Memory → TraceEvent) (line : Memory → Option String)
    (fields : List (String × String)) : Unlimited (notify event line fields) := by
  refine .look (fun _ _ _ => rfl) fun m => ?_
  rcases m.tracer with _ | _ | _
  · exact fun _ _ _ => rfl
  · exact .modify fun _ _ _ => rfl
  · exact reportShown_unlimited _ _ _ _

theorem onTop_unlimited (g : Frame → Frame) : Unlimited (modify (·.onTop g)) :=
  .modify fun m _ _ => onTop_withLimits m g

theorem Primitive.unlimited {touch : Prop} {u : Update α} (h : Primitive touch u) :
    Unlimited u := by
  intro m D L
  cases h with
  | onTop _ hg => exact onTop_unlimited _ m D L
  | pop | popMany =>
    simp only [Machine.pop, Machine.popMany, modifyGet_apply, withLimits]
    split <;> rfl
  | onMemory f => rfl
  | reportShown level target message fields => rfl
  | noteSet kind name value => exact notify_unlimited _ _ _ m D L
  | bindGlobal name value => rfl
  | setMovieProp name value =>
    show ((), if Text.sameName name itemDelimiterName then _ else _) =
      ((), withLimits (if Text.sameName name itemDelimiterName then _ else _) D L)
    split
    · simp only [withLimits]
      split <;> rfl
    · rfl
  | setMemberProp castLib member prop value =>
    simp only [Machine.setMemberProp, modifyGet_apply, withLimits]
    split <;> rfl
  | pass => rfl

theorem takeResult_unlimited : Unlimited takeResult := by
  intro m D L
  simp only [Machine.takeResult, modifyGet_apply, withLimits]
  split <;> rfl

theorem fetch_unlimited (frame : Frame) (i : Instruction) : Unlimited (fetch frame i) :=
  .seq (onTop_unlimited _) fun _ => notify_unlimited _ _ _

theorem enterHandler_unlimited (frame : Frame) : Unlimited (enterHandler frame) := by
  refine .seq (.modify fun _ _ _ => rfl) fun _ => .look (fun _ _ _ => rfl) fun m => ?_
  exact .seq (report_unlimited _ _ _ _) fun _ => .seq (notify_unlimited _ _ _) fun _ _ _ _ => rfl

theorem leaveHandler_unlimited (call : CallInfo) (outcome : Except Fault Value) :
    Unlimited (leaveHandler call outcome) := by
  have told : Unlimited (noteEnd call outcome) := by
    cases outcome with
    | ok v =>
      show Unlimited (noteExit call v)
      exact notify_unlimited _ _ _
    | error fault =>
      show Unlimited (noteFailure call.name fault)
      exact notify_unlimited _ _ _
  exact .seq told fun _ => .look (fun _ _ _ => rfl) fun _ => .seq (report_unlimited _ _ _ _) fun _ =>
    .modify fun _ _ _ => rfl

/-! ## Routines -/

/-- A machine without functions of the host whose limits are at most these. -/
structure Within (D L : Nat) (m : Machine) : Prop where
  hosts : m.hosts = []
  maxCallDepth : m.config.maxCallDepth ≤ D
  stepLimit : m.config.stepLimit ≤ L

theorem Within.steady {touch call : Prop} {m m₁ : Machine} (h : Within D L m)
    (hs : Steady touch call m m₁) : Within D L m₁ where
  hosts := hs.hosts.trans h.hosts
  maxCallDepth := hs.maxCallDepth ▸ h.maxCallDepth
  stepLimit := hs.stepLimit ▸ h.stepLimit

/-- Where `a` ends with a value and the machine goes on, `b` does the same from
higher limits. -/
def Carries (D L : Nat) (a b : Action α) : Prop :=
  ∀ m, Within D L m → ∀ v m₁, perform a m = (.ok v, m₁) → m₁.stopped = false →
    perform b (m.withLimits D L) = (.ok v, m₁.withLimits D L)

theorem Unlimited.carries {u : Update α} (hu : Unlimited u) : Carries D L (sure u) (sure u) := by
  intro m _ v m₁ h _
  rw [perform_sure] at h ⊢
  rw [hu]
  cases h
  rfl

theorem runFrame_done_carries {c c' : Calls} {name : String} {limit limit' remaining remaining' : Nat}
    {m m₁ : Machine} {v : Value} (hn : m.next? = none)
    (h : perform (runFrame c name limit remaining) m = (.ok v, m₁)) :
    perform (runFrame c' name limit' remaining') (m.withLimits D L) =
      (.ok v, m₁.withLimits D L) := by
  rw [runFrame_done hn] at h
  rw [runFrame_done (show (m.withLimits D L).next? = none from hn), takeResult_unlimited]
  cases h
  rfl

section

variable {c c' : Calls} (sound : SoundCalls c)
  (carry : ∀ site args receiver,
    Carries D L (c.activate site args receiver) (c'.activate site args receiver))

include sound carry

theorem Routine.carries {touch call : Prop} {a : Calls → Action α}
    (h : Routine .none touch call a) : Carries D L (a c) (a c') := by
  induction h with
  | pure v =>
    intro m _ w m₁ h _
    cases h
    rfl
  | @bind α β a f ha hf iha ihf =>
    intro m hm v m₁ h running
    rcases he : perform (a c) m with ⟨fault | w, m₂⟩
    · rw [perform_bind_error he] at h
      cases h
    · rw [perform_bind_ok he] at h
      have first := (ha.sound sound m hm.hosts).steady
      rw [he] at first
      have hm₂ := hm.steady first
      have later := ((hf w).sound sound m₂ hm₂.hosts).steady
      rw [h] at later
      rw [perform_bind_ok (iha m hm w m₂ he (later.was_running running))]
      exact ihf w m₂ hm₂ v m₁ h running
  | read blind hf ih =>
    intro m hm v m₁ h running
    have unread := congrFun (blind.withLimits m D L) c'
    rw [perform_get_bind] at h ⊢
    rw [unread]
    exact ih m hm.hosts m hm v m₁ h running
  | work h => exact h.unlimited.carries
  | write h cell key f => exact (Primitive.writeKey touch cell key f).unlimited.carries
  | throw h fault =>
    intro m _ v m₁ h _
    cases h
  | fail h hosted fault => exact absurd rfl hosted
  | stop h =>
    intro m _ v m₁ h running
    cases h
    cases running
  | activate h site args receiver => exact carry site args receiver
  | reenter h name args granted => exact granted.elim
  | @contain α h a ha message ih =>
    intro m hm v m₁ h running
    rw [perform_sure] at h ⊢
    rcases he : perform (a c) m with ⟨fault | w, m₂⟩
    · rw [contained_error he] at h
      cases h
      cases running
    · rw [contained_ok he] at h
      cases h
      rw [contained_ok (ih m hm w m₂ he running)]

theorem execute_carries (i : Instruction) :
    Carries D L (Step.execute c i) (Step.execute c' i) := by
  cases hi : i.opcode.isCall with
  | false => exact (Step.execute_routine hi).carries sound carry
  | true => exact (Step.execute_call_routine Hosting.none_open hi).carries sound carry

/-! ## Frames and handlers -/

theorem stepFrame_carries {m : Machine} (hm : Within D L m) {frame : Frame} {i : Instruction}
    (hn : m.next? = some (frame, i)) {m₁ : Machine}
    (h : perform (stepFrame c frame i) m = (.ok (), m₁)) (running : m₁.stopped = false) :
    perform (stepFrame c' frame i) (m.withLimits D L) = (.ok (), m₁.withLimits D L) := by
  rw [perform_stepFrame] at h ⊢
  rw [fetch_unlimited]
  exact execute_carries sound carry i _ (hm.steady (fetch_steady hn)) () m₁ h running

theorem runFrame_carries (name : String) (limit limit' : Nat) {remaining remaining' : Nat}
    (hr : remaining ≤ remaining') :
    Carries D L (runFrame c name limit remaining) (runFrame c' name limit' remaining') := by
  intro m hm v m₁ h running
  induction remaining generalizing remaining' m with
  | zero =>
    cases hn : m.next? with
    | none => exact runFrame_done_carries hn h
    | some next =>
      rw [runFrame_exhausted hn] at h
      cases h
  | succ remaining ih =>
    cases hn : m.next? with
    | none => exact runFrame_done_carries hn h
    | some next =>
      obtain ⟨frame, i⟩ := next
      obtain ⟨remaining', rfl⟩ : ∃ n, remaining' = n + 1 := ⟨remaining' - 1, by omega⟩
      have hs := (stepFrame_ended sound hm.hosts hn).steady
      rw [runFrame_step hn] at h
      rw [runFrame_step (show (m.withLimits D L).next? = some (frame, i) from hn)]
      rcases he : perform (stepFrame c frame i) m with ⟨fault | u, m₂⟩
      · rw [perform_bind_error he] at h
        cases h
      · rw [perform_bind_ok he] at h
        rw [he] at hs
        have between : m₂.stopped = false := by
          cases stopped : m₂.stopped with
          | false => rfl
          | true =>
            rw [runFrame_done (next?_stopped stopped)] at h
            cases h
            rw [← stopped]
            exact (takeResult_steady m₂).was_running running
        rw [perform_bind_ok (stepFrame_carries sound carry hm hn he between)]
        exact ih (Nat.le_of_succ_le_succ hr) m₂ (hm.steady hs) h

theorem runHandler_carries (site : HandlerSite) (args : Array Value) (receiver : Value) :
    Carries D L (runHandler c site args receiver) (runHandler c' site args receiver) := by
  intro m hm v m₁ h running
  obtain ⟨call, log, events, hs, -⟩ := enterHandler_eq (Frame.enter site args receiver) m
  let m₂ := { m with frames := Frame.enter site args receiver :: m.frames, log, events }
  have within : Within D L m₂ := ⟨hm.hosts, hm.maxCallDepth, hm.stepLimit⟩
  have raised : enterHandler (Frame.enter site args receiver) (m.withLimits D L) =
      (call, m₂.withLimits D L) := by
    rw [enterHandler_unlimited, hs]
  rcases he : perform (runFrame c site.name m₂.config.stepLimit m₂.config.stepLimit) m₂ with
    ⟨fault | w, m₃⟩
  · rw [perform_runHandler hs he] at h
    cases h
  · rw [perform_runHandler hs he] at h
    obtain ⟨rfl, rfl⟩ : w = v ∧ (leaveHandler call (.ok w) m₃).2 = m₁ := by
      cases h
      exact ⟨rfl, rfl⟩
    obtain ⟨log', events', hl, -⟩ := leaveHandler_eq call (.ok w) m₃
    rw [hl] at running
    have inner := runFrame_carries sound carry site.name m₂.config.stepLimit L within.stepLimit m₂
      within w m₃ he running
    rw [perform_runHandler raised inner, leaveHandler_unlimited]

theorem runErrorHandler_carries (site : HandlerSite) (args : Array Value) (receiver : Value) :
    Carries D L (runErrorHandler c site args receiver) (runErrorHandler c' site args receiver) := by
  intro m hm v m₁ h running
  rcases Nat.eq_zero_or_pos m.errorHandlers with none | some
  · rcases he : perform (runHandler c site args receiver) { m with errorHandlers := 1 } with
      ⟨fault | w, m₂⟩
    · rw [perform_runErrorHandler none he] at h
      cases h
    · rw [perform_runErrorHandler none he] at h
      obtain ⟨rfl, rfl⟩ : w = v ∧ { m₂ with errorHandlers := m₂.errorHandlers - 1 } = m₁ := by
        cases h
        exact ⟨rfl, rfl⟩
      have inner := runHandler_carries sound carry site args receiver { m with errorHandlers := 1 }
        ⟨hm.hosts, hm.maxCallDepth, hm.stepLimit⟩ w m₂ he running
      exact perform_runErrorHandler (m := m.withLimits D L) none inner
  · rw [perform_runErrorHandler_nested c site args receiver some] at h
    rw [perform_runErrorHandler_nested (m := m.withLimits D L) c' site args receiver some,
      report_unlimited]
    cases h
    rfl

end

/-! ## Activations -/

/-- An activation that yields a value and lets the machine go on was not
refused. -/
theorem activate_granted {remaining : Nat} {site : HandlerSite} {args : Array Value}
    {receiver : Value} {m m₁ : Machine} {v : Value} (hosts : m.hosts = [])
    (h : perform (activate remaining site args receiver) m = (.ok v, m₁))
    (running : m₁.stopped = false) :
    m.stopped = false ∧ remaining ≠ 0 ∧ m.depth < m.config.maxCallDepth := by
  have hs := (activate_completed remaining site args receiver m hosts).ended.steady
  rw [h] at hs
  have started := hs.was_running running
  refine ⟨started, fun last => ?_, Nat.lt_of_not_le fun deep => ?_⟩
  · rw [activate_overflow site args receiver started (.inl last)] at h
    cases h
  · rw [activate_overflow site args receiver started (.inr deep)] at h
    cases h

theorem activate_carries {remaining remaining' : Nat} (hr : remaining ≤ remaining')
    (site : HandlerSite) (args : Array Value) (receiver : Value) :
    Carries D L (activate remaining site args receiver) (activate remaining' site args receiver) := by
  induction remaining generalizing remaining' site args receiver with
  | zero =>
    intro m hm v m₁ h running
    exact absurd rfl (activate_granted hm.hosts h running).2.1
  | succ remaining ih =>
    intro m hm v m₁ h running
    obtain ⟨remaining', rfl⟩ : ∃ n, remaining' = n + 1 := ⟨remaining' - 1, by omega⟩
    obtain ⟨started, -, shallow⟩ := activate_granted hm.hosts h running
    have raised : (m.withLimits D L).depth < (m.withLimits D L).config.maxCallDepth :=
      Nat.lt_of_lt_of_le shallow hm.maxCallDepth
    have carry := ih (Nat.le_of_succ_le_succ hr)
    rw [activate_succ remaining site args receiver started shallow] at h
    rw [activate_succ (m := m.withLimits D L) remaining' site args receiver started raised]
    cases handles : isErrorHandler site.name with
    | true =>
      rw [handles, if_pos rfl] at h
      rw [if_pos rfl]
      exact runErrorHandler_carries (callsWith_sound remaining m.maxHops) carry site args receiver
        m hm v m₁ h running
    | false =>
      rw [handles, if_neg Bool.false_ne_true] at h
      rw [if_neg Bool.false_ne_true]
      exact runHandler_carries (callsWith_sound remaining m.maxHops) carry site args receiver
        m hm v m₁ h running

/-! ## Entries -/

/-- A call that yields a value and leaves the machine running, under any limits,
does exactly the same under higher ones. -/
theorem limits_conservative (entry : Entry) {m m₁ : Machine} {v : Value} (hosts : m.hosts = [])
    (h : perform entry.action m = (.ok v, m₁)) (running : m₁.stopped = false)
    (hD : m.config.maxCallDepth ≤ D) (hL : m.config.stepLimit ≤ L) :
    perform entry.action (m.withLimits D L) = (.ok v, m₁.withLimits D L) := by
  rw [Entry.perform_action] at h ⊢
  have deeper : m.config.maxCallDepth - m.depth ≤ D - m.depth := Nat.sub_le_sub_right hD _
  exact entry.body_routine.carries (callsWith_sound _ m.maxHops) (activate_carries deeper) m
    ⟨hosts, hD, hL⟩ v m₁ h running

theorem limits_conservative_ask :
    let m : Machine := { config := { maxCallDepth := 2, stepLimit := 4 } }
    let entry := Entry.run askSite #[] none
    ∃ m₁, perform entry.action m = (.ok (.int 7), m₁) ∧
      perform entry.action (m.withLimits 50 1000000) =
        (.ok (.int 7), m₁.withLimits 50 1000000) := by
  intro m entry
  have value : (perform entry.action m).1.toOption = some (.int 7) := by decide +kernel
  have running : (perform entry.action m).2.stopped = false := by decide +kernel
  rcases he : perform entry.action m with ⟨fault | v, m₁⟩
  · rw [he] at value
    cases value
  · rw [he] at value running
    cases value
    exact ⟨m₁, rfl, limits_conservative entry rfl he running (by decide) (by decide)⟩

end Lingo
