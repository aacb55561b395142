import Lingo.Proofs.Alike
import Lingo.Proofs.Instances

/-!
# Watching changes nothing

What a machine does, and what becomes of it, does not depend on who watches: what two
machines that are `Alike` do ends alike (`EndAlike`).

* `Routine.indifferent`: so it is for operations;
* `runFrame_indifferent`, `activate_indifferent`: so it is for frames and
  activations, by induction on what is left of instructions and levels of calls;
* `Entry.indifferent`: what follows for the host.
-/

namespace Lingo

open Machine
open Host (perform)

variable {α β : Type} {m m' m₁ m₂ : Machine}

/-! ## Routines -/

/-- With these functions of the host, the action does the same whoever watches. -/
def IndifferentFrom (functions : List (String × HostFunction)) (a : Action α) : Prop :=
  ∀ m m' : Machine, m.hosts = functions → Alike m m' → EndAlike (perform a m) (perform a m')

/-- Calls that do the same whoever watches, and that keep the functions of the
host. -/
structure IndifferentCalls (functions : List (String × HostFunction)) (c : Calls) : Prop where
  keeping : KeepingCalls functions c
  activate : ∀ site args receiver, IndifferentFrom functions (c.activate site args receiver)
  reenter : ∀ name args, IndifferentFrom functions (c.reenter name args)

section

variable {functions : List (String × HostFunction)} {c : Calls}

theorem IndifferentFrom.bind {a : Action α} {f : α → Action β} (ha : IndifferentFrom functions a)
    (keeps : KeepsFrom functions a) (hf : ∀ v, IndifferentFrom functions (f v)) :
    IndifferentFrom functions (a >>= f) := by
  intro m m' hosts h
  have first := ha m m' hosts h
  have kept := (keeps m hosts).hosts.trans hosts
  rcases he : perform a m with ⟨fault | v, m₁⟩ <;> rw [he] at first kept
  · rw [perform_bind_error he, perform_bind_error first.eq]
    exact ⟨rfl, first.alike⟩
  · rw [perform_bind_ok he, perform_bind_ok first.eq]
    exact hf v _ _ kept first.alike

theorem IndifferentFrom.contained {a : Action α} (ha : IndifferentFrom functions a)
    (message : Fault → String) : IndifferentFrom functions (sure (contained a message)) := by
  intro m m' hosts h
  have first := ha m m' hosts h
  rcases he : perform a m with ⟨fault | v, m₁⟩ <;> rw [he] at first
  · rw [perform_contained_error he, perform_contained_error first.eq]
    exact ⟨rfl, (stopWith_indifferent _ _ _ first.alike).alike⟩
  · rw [perform_contained_ok he, perform_contained_ok first.eq]
    exact ⟨rfl, first.alike⟩

theorem Indifferent.sure {u : Update α} (hu : Indifferent u) :
    IndifferentFrom functions (sure u) := by
  intro m m' _ h
  obtain ⟨outcome, alike⟩ := hu m m' h
  exact ⟨congrArg Except.ok outcome, alike⟩

theorem Routine.indifferent {H : Hosting} {touch call : Prop} {a : Calls → Action α}
    (h : Routine H touch call a) (hc : IndifferentCalls H.functions c) :
    IndifferentFrom H.functions (a c) := by
  induction h with
  | pure v => exact fun _ _ _ h => ⟨rfl, h⟩
  | bind ha _ iha ihf => exact .bind iha (ha.keeps hc.keeping) ihf
  | read blind _ ih =>
    intro m m' hosts h
    rw [perform_get_bind, perform_get_bind, congrFun (blind.alike h) c]
    exact ih m hosts m m' hosts h
  | work h => exact h.indifferent.sure
  | write h cell key f => exact (Primitive.writeKey touch cell key f).indifferent.sure
  | throw | fail => exact fun _ _ _ h => ⟨rfl, h⟩
  | stop => exact (setStopped_unobserving true).indifferent.sure
  | activate _ site args receiver => exact hc.activate site args receiver
  | reenter _ name args => exact hc.reenter name args
  | contain _ _ message ih => exact .contained ih message

/-! ## Frames -/

variable (hc : IndifferentCalls functions c)

include hc

theorem execute_indifferent (i : Instruction) : IndifferentFrom functions (Step.execute c i) := by
  cases hi : i.opcode.isCall with
  | false => exact (Step.execute_routine (H := .free functions) hi).indifferent hc
  | true => exact (Step.execute_call_routine (Hosting.free_open functions) hi).indifferent hc

theorem runFrame_indifferent (name : String) (limit remaining : Nat) :
    IndifferentFrom functions (runFrame c name limit remaining) := by
  induction remaining with
  | zero =>
    intro m m' hosts h
    cases hn : m.next? with
    | none =>
      rw [runFrame_done hn, runFrame_done (h.next?.trans hn)]
      exact takeResult_unobserving.indifferent.sure m m' hosts h
    | some next =>
      rw [runFrame_exhausted hn, runFrame_exhausted (h.next?.trans hn)]
      exact ⟨rfl, h⟩
  | succ remaining ih =>
    intro m m' hosts h
    cases hn : m.next? with
    | none =>
      rw [runFrame_done hn, runFrame_done (h.next?.trans hn)]
      exact takeResult_unobserving.indifferent.sure m m' hosts h
    | some next =>
      obtain ⟨frame, i⟩ := next
      have fetched := (fetch_keeps hn).hosts.trans hosts
      have kept := (execute_keeps hc.keeping i _ fetched).hosts.trans fetched
      have step :=
        execute_indifferent hc i _ _ fetched (fetch_indifferent frame i m m' h).alike
      rcases he : perform (Step.execute c i) (fetch frame i m).2 with ⟨fault | u, m₁⟩ <;>
        rw [he] at step kept
      · rw [runFrame_fault hn he, runFrame_fault (h.next?.trans hn) step.eq]
        exact ⟨rfl, step.alike⟩
      · rw [runFrame_next hn he, runFrame_next (h.next?.trans hn) step.eq]
        exact ih _ _ kept step.alike

/-! ## Activations -/

/-- A handler that is not skipped runs in its frame, between its start and its end. -/
theorem guarded_indifferent (site : HandlerSite) (args : Array Value) (receiver : Value)
    (hosts : m.hosts = functions) (h : Alike m m')
    (outermost : isErrorHandler site.name = true → m.errorHandlers = 0) :
    EndAlike
      (perform ((if isErrorHandler site.name then runErrorHandler else runHandler) c site args
        receiver) m)
      (perform ((if isErrorHandler site.name then runErrorHandler else runHandler) c site args
        receiver) m') := by
  have started :=
    enterHandler_indifferent (Frame.enter site args receiver) _ _ (h.handling site)
  have kept := (handling_keeps m site).trans
    (enterHandler_keeps (Frame.enter site args receiver) (m.handling site))
  rcases hs : enterHandler (Frame.enter site args receiver) (m.handling site) with ⟨call, m₁⟩
  rcases hs' : enterHandler (Frame.enter site args receiver) (m'.handling site) with ⟨call', m₁'⟩
  rw [hs, hs'] at started
  rw [hs] at kept
  obtain rfl : call' = call := started.outcome
  have alike : Alike m₁ m₁' := started.alike
  have ran := runFrame_indifferent hc site.name m₁.config.stepLimit m₁.config.stepLimit m₁ m₁'
    (kept.hosts.trans hosts) alike
  rw [perform_guarded outermost hs rfl,
    perform_guarded (fun handles => h.errorHandlers.trans (outermost handles)) hs' rfl,
    alike.config]
  generalize perform (runFrame c site.name m₁.config.stepLimit m₁.config.stepLimit) m₁ = e at ran ⊢
  generalize perform (runFrame c site.name m₁.config.stepLimit m₁.config.stepLimit) m₁' = e'
    at ran ⊢
  rw [ran.outcome]
  have left := (leaveHandler_indifferent call' e.1 e.2 e'.2 ran.alike).alike
  exact .intro e.1 (left.handled site)

end

section

variable {functions : List (String × HostFunction)}

/-- Calls that the host forwards do what activations do, by induction on how often
it does. -/
theorem callsWith_indifferent {activate : HandlerSite → Array Value → Value → Action Value}
    (keep : ∀ site args receiver, KeepsFrom functions (activate site args receiver))
    (acts : ∀ site args receiver, IndifferentFrom functions (activate site args receiver))
    (hops : Nat) : IndifferentCalls functions (callsWith activate hops) := by
  induction hops with
  | zero =>
    refine ⟨callsWith_keeps keep 0, acts, fun name args m m' _ h => ⟨?_, h⟩⟩
    show Except.error (Fault.callStackOverflow name m'.config.maxCallDepth) = _
    rw [h.config]
    rfl
  | succ hops ih =>
    refine ⟨callsWith_keeps keep _, acts, fun name args => ?_⟩
    have forwarded : Routine (.free functions) True True fun c => callHandler c name args :=
      callHandler_routine ((Hosting.free_open functions).serves name args) fun _ => trivial
    exact forwarded.indifferent ih

theorem activate_indifferent (remaining : Nat) (site : HandlerSite) (args : Array Value)
    (receiver : Value) : IndifferentFrom functions (activate remaining site args receiver) := by
  induction remaining generalizing site args receiver with
  | zero =>
    intro m m' hosts h
    cases stopped : m.stopped with
    | true =>
      rw [activate_stopped 0 site args receiver stopped,
        activate_stopped 0 site args receiver (h.stopped.trans stopped)]
      exact ⟨rfl, h⟩
    | false =>
      rw [activate_overflow site args receiver stopped (.inl rfl),
        activate_overflow site args receiver (h.stopped.trans stopped) (.inl rfl), h.config]
      exact ⟨rfl, h⟩
  | succ remaining ih =>
    intro m m' hosts h
    have depth : m'.depth = m.depth := congrArg List.length h.frames
    cases stopped : m.stopped with
    | true =>
      rw [activate_stopped _ site args receiver stopped,
        activate_stopped _ site args receiver (h.stopped.trans stopped)]
      exact ⟨rfl, h⟩
    | false =>
      rcases Nat.lt_or_ge m.depth m.config.maxCallDepth with shallow | deep
      · rw [activate_succ remaining site args receiver stopped shallow,
          activate_succ remaining site args receiver (h.stopped.trans stopped)
            (by rwa [depth, h.config])]
        have hops : m'.maxHops = m.maxHops := by rw [Machine.maxHops, Machine.maxHops, h.hosts]
        have calls := callsWith_indifferent (activate_keeps remaining) ih m.maxHops
        rw [hops]
        by_cases outermost : isErrorHandler site.name = true → m.errorHandlers = 0
        · exact guarded_indifferent calls site args receiver hosts h outermost
        · obtain ⟨handles, nested⟩ := Classical.not_imp.mp outermost
          have some := Nat.pos_of_ne_zero nested
          rw [perform_nested handles some, perform_nested handles (h.errorHandlers ▸ some)]
          exact ⟨rfl, (report_indifferent _ _ _ _ m m' h).alike⟩
      · rw [activate_overflow site args receiver stopped (.inr deep),
          activate_overflow site args receiver (h.stopped.trans stopped)
            (.inr (by rwa [depth, h.config])), h.config]
        exact ⟨rfl, h⟩

end

/-! ## The host -/

/-- Whatever a host has a machine do, it does the same whoever watches. -/
theorem Entry.indifferent (entry : Entry) (h : Alike m m') :
    EndAlike (perform entry.action m) (perform entry.action m') := by
  rw [entry.perform_action, entry.perform_action, h.calls]
  have calls : IndifferentCalls m.hosts m.calls :=
    callsWith_indifferent (activate_keeps _) (activate_indifferent _) _
  exact (entry.body_hosted (Hosting.free_open m.hosts)).indifferent calls m m' rfl h

end Lingo
