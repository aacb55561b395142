import Lingo.Proofs.Steady

/-!
# Sound actions

An action is `Sound` if from every machine without functions of the host it ends
as `Ended` says: it keeps what `Steady` lists, and if it may call, its faults
leave the machine running, so that a fault is never both contained and passed
on.

`Routine.sound`: routines are sound if the activations that they are given are
(`SoundCalls`).
-/

namespace Lingo

open Machine
open Host (perform)

variable {α β : Type} {touch call : Prop}

/-- How an action ends that starts from the machine `m`. -/
structure Ended (touch call : Prop) (m : Machine) (e : Except Fault α × Machine) : Prop where
  steady : Steady touch call m e.2
  fault : call → ∀ fault, e.1 = .error fault → e.2.stopped = false

/-- Whatever the machine without functions of the host, the action ends well. -/
def Sound (touch call : Prop) (a : Action α) : Prop :=
  ∀ m : Machine, m.hosts = [] → Ended touch call m (perform a m)

/-- Calls whose activations are sound and keep every frame. -/
def SoundCalls (c : Calls) : Prop :=
  ∀ site args receiver, Sound False True (c.activate site args receiver)

/-! ## Ends -/

namespace Ended

variable {m m₁ : Machine}

theorem ok (h : Steady touch call m m₁) (v : α) : Ended touch call m (.ok v, m₁) :=
  ⟨h, fun _ _ h => nomatch h⟩

theorem refl (v : α) (m : Machine) : Ended touch call m (.ok v, m) :=
  .ok (.refl m) v

theorem trans {e₁ : Except Fault α × Machine} {e₂ : Except Fault β × Machine}
    (h₁ : Ended touch call m e₁) (h₂ : Ended touch call e₁.2 e₂) : Ended touch call m e₂ :=
  ⟨h₁.steady.trans h₂.steady, h₂.fault⟩

/-- What does not call does not stop the machine either. -/
theorem of_running {e : Except Fault α × Machine} (h : Ended touch False m e)
    (running : m.stopped = false) : Ended touch True m e where
  steady := h.steady.mono id False.elim
  fault _ _ _ := (h.steady.running id).trans running

theorem bind {a : Action α} {f : α → Action β} (ha : Ended touch call m (perform a m))
    (hf : ∀ v m₁, perform a m = (.ok v, m₁) → Ended touch call m₁ (perform (f v) m₁)) :
    Ended touch call m (perform (a >>= f) m) := by
  rcases he : perform a m with ⟨fault | v, m₁⟩
  · rw [perform_bind_error he]
    rw [he] at ha
    exact ⟨ha.steady, fun hc _ _ => ha.fault hc fault rfl⟩
  · rw [perform_bind_ok he]
    rw [he] at ha
    exact ha.trans (hf v m₁ he)

end Ended

/-! ## Contained actions -/

theorem contained_ok {a : Action α} {m m₁ : Machine} {v : α} (h : perform a m = (.ok v, m₁))
    (message : Fault → String) : contained a message m = (some v, m₁) := by
  rw [contained, update_bind_apply, show a.run m = (.ok v, m₁) from h]
  rfl

theorem contained_error {a : Action α} {m m₁ : Machine} {fault : Fault}
    (h : perform a m = (.error fault, m₁)) (message : Fault → String) :
    contained a message m = (none, (stopWith (message fault) m₁).2) := by
  rw [contained, update_bind_apply, show a.run m = (.error fault, m₁) from h]
  rfl

theorem stop_steady (m : Machine) : Steady touch True m (setStopped true m).2 := by
  have same : Steady touch True m m := .refl m
  exact { same with
    stopped := fun _ => rfl
    running := fun n => absurd trivial n }

theorem contained_ended {a : Action α} {m : Machine} (h : Ended touch True m (perform a m))
    (message : Fault → String) :
    Ended touch True m (perform (sure (contained a message)) m) := by
  rw [perform_sure]
  rcases he : perform a m with ⟨fault | v, m₁⟩
  · rw [contained_error he]
    rw [he] at h
    have reported : Steady touch True m₁ (report .error .vm (message fault) [] m₁).2 :=
      (report_noted _ _ _ _ m₁).steady fun _ => rfl
    exact .ok ((h.steady.trans reported).trans (stop_steady _)) none
  · rw [contained_ok he]
    rw [he] at h
    exact .ok h.steady (some v)

/-! ## Routines -/

/-- Routines are sound if activations are. -/
theorem Routine.sound {a : Calls → Action α} (h : Routine .none touch call a) {c : Calls}
    (hc : SoundCalls c) : Sound touch call (a c) := by
  induction h with
  | pure v => exact fun m _ => .refl v m
  | bind ha hf iha ihf =>
    intro m hosts
    refine (iha m hosts).bind fun v m₁ he => ihf v m₁ ?_
    have hs := (iha m hosts).steady.hosts
    rw [he] at hs
    exact hs.trans hosts
  | read same hf ih => exact fun m hosts => ih m hosts m hosts
  | work h => exact fun m _ => .ok (h.steady m) _
  | write _ cell key f => exact fun m _ => .ok ((Primitive.writeKey _ cell key f).steady m) _
  | throw h fault => exact fun m _ => ⟨.refl m, fun hcall => absurd hcall h⟩
  | fail h hosted fault => exact absurd rfl hosted
  | stop h => exact fun m _ => .ok ((stop_steady m).mono id fun _ => h) ()
  | activate h site args receiver =>
    intro m hosts
    have he := hc site args receiver m hosts
    exact ⟨he.steady.mono False.elim fun _ => h, fun _ => he.fault trivial⟩
  | reenter h name args granted => exact granted.elim
  | contain h ha message ih =>
    intro m hosts
    rw [eq_true h] at ih ⊢
    exact contained_ended (ih m hosts) message

end Lingo
