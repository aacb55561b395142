import Lingo.Proofs.Breaking
import Lingo.Proofs.Forwarding

/-!
# Every run ends

The interpreter is defined by recursion on two counters that a machine does not
have: the levels of calls that are left, and how often the host may still forward
a call. Neither ever runs out: whatever the code, a task comes to the end that
`Ends` gives it without them.

* `Routine.faithful`, `runFrame_faithful`: with calls that end as `Ends` says, so
  do routines and frames;
* `callsWith_faithful`: calls end so that the host may forward often enough, by
  induction on how often it does;
* `activate_ends`: activations end so, by induction on the levels of calls that
  are left;
* `Ends.outcome`: there is no other end;
* `every_run_ends`: what follows for the host, and when it has an answer.

The counters are gone in `standing`, the calls of whatever machine they are made
in. Calls that are counted down do the same as these (`Faithful`).
-/

namespace Lingo

open Machine
open Host (perform)

/-! ## Equations -/

section

variable {α : Type} {c : Calls} {m m₁ : Machine} {a : Action α}

theorem perform_contained_ok {v : α} (h : perform a m = (.ok v, m₁)) (message : Fault → String) :
    perform (sure (contained a message)) m = (.ok (some v), m₁) := by
  rw [perform_sure, contained_ok h]

theorem perform_contained_error {fault : Fault} (h : perform a m = (.error fault, m₁))
    (message : Fault → String) :
    perform (sure (contained a message)) m =
      (.ok none, (stopWith (message fault) m₁).2) := by
  rw [perform_sure, contained_error h]

variable {name : String} {limit remaining : Nat} {frame : Frame} {i : Instruction}

theorem runFrame_fault (hn : m.next? = some (frame, i)) {fault : Fault}
    (h : perform (Step.execute c i) (fetch frame i m).2 = (.error fault, m₁)) :
    perform (runFrame c name limit (remaining + 1)) m = (.error fault, m₁) := by
  rw [runFrame_step hn]
  exact perform_bind_error h _

theorem runFrame_next (hn : m.next? = some (frame, i)) {u : Unit}
    (h : perform (Step.execute c i) (fetch frame i m).2 = (.ok u, m₁)) :
    perform (runFrame c name limit (remaining + 1)) m =
      perform (runFrame c name limit remaining) m₁ := by
  rw [runFrame_step hn]
  exact perform_bind_ok h _

end

/-! ## Calls that are not counted -/

/-- The ways back into the interpreter of the machine that they are taken in. -/
def standing : Calls where
  activate site args receiver := do (← get).calls.activate site args receiver
  reenter name args := do (← get).calls.reenter name args

/-- How a task ends in the interpreter with the given calls. -/
def Task.outcome {α : Type} (c : Calls) (m : Machine) : Task α → Except Fault α × Machine
  | .act a => perform (a c) m
  | .frame name limit remaining => perform (runFrame c name limit remaining) m

/-- From the machine, the task comes to an end with the given calls, and to the
same with those that are not counted. -/
structure Faithful {α : Type} (c : Calls) (t : Task α) (m : Machine) : Prop where
  ends : ∃ run, Ends t m run (t.outcome c m)
  same : t.outcome c m = t.outcome standing m

variable {α : Type}

theorem Faithful.intro {c : Calls} {t : Task α} {m : Machine} {run : List Happening}
    {e : Except Fault α × Machine} (h : Ends t m run e) (hc : t.outcome c m = e)
    (hs : t.outcome standing m = e) : Faithful c t m :=
  ⟨⟨run, hc ▸ h⟩, hc.trans hs.symm⟩

/-- Handlers may be activated `level` levels deep. -/
structure AtLevel (functions : List (String × HostFunction)) (level : Nat) (m : Machine) :
    Prop where
  hosts : m.hosts = functions
  level : m.config.maxCallDepth - m.depth = level

theorem AtLevel.steady {functions : List (String × HostFunction)} {level : Nat} {m m₁ : Machine}
    (h : AtLevel functions level m) (hs : Steady True True m m₁) : AtLevel functions level m₁ where
  hosts := hs.hosts.trans h.hosts
  level := by
    have depth : m₁.depth = m.depth := hs.depth
    rw [hs.maxCallDepth, depth, h.level]

/-- Calls that are faithful where handlers may be activated `level` levels
deep. -/
structure FaithfulCalls (H : Hosting) (level : Nat) (c : Calls) : Prop where
  activate (site : HandlerSite) (args : Array Value) (receiver : Value) {m : Machine}
    (hm : AtLevel H.functions level m) : Faithful c (.act fun c => c.activate site args receiver) m
  reenter {name : String} {args : Array Value} (granted : H.mayForward name args) {m : Machine}
    (hm : AtLevel H.functions level m) : Faithful c (.act fun c => c.reenter name args) m

/-! ## Routines and frames -/

section

variable {H : Hosting} {level : Nat} {c : Calls} (hc : FaithfulCalls H level c)

include hc

theorem Routine.faithful {touch call : Prop} {a : Calls → Action α} (h : Routine H touch call a)
    {m : Machine} (hm : AtLevel H.functions level m) : Faithful c (.act a) m := by
  induction h generalizing m with
  | pure v => exact .intro (.pure v m) rfl rfl
  | @bind α β a f ha hf iha ihf =>
    obtain ⟨⟨xs, hx⟩, same⟩ := iha hm
    have later := hm.steady hx.steady
    dsimp only [Task.outcome] at hx same later
    rcases he : perform (a c) m with ⟨fault | v, m₁⟩
    · rw [he] at hx same
      exact .intro (.skip hx) (perform_bind_error he _) (perform_bind_error same.symm _)
    · rw [he] at hx same later
      obtain ⟨⟨ys, hy⟩, same'⟩ := ihf v later
      exact .intro (.next hx hy) (perform_bind_ok he _)
        ((perform_bind_ok same.symm _).trans same'.symm)
  | read _ hf ih =>
    obtain ⟨⟨run, hr⟩, same⟩ := ih m hm.hosts hm
    exact .intro (.read hr) rfl same.symm
  | work h keeps => exact .intro (.work (h.mono fun _ => trivial) keeps m) rfl rfl
  | write _ cell key f => exact .intro (.write cell key f m) rfl rfl
  | throw _ fault | fail _ _ fault => exact .intro (.throw fault m) rfl rfl
  | stop => exact .intro (.stop m) rfl rfl
  | activate _ site args receiver => exact hc.activate site args receiver hm
  | reenter _ name args granted => exact hc.reenter granted hm
  | @contain α _ a ha message ih =>
    obtain ⟨⟨xs, hx⟩, same⟩ := ih hm
    dsimp only [Task.outcome] at hx same
    rcases he : perform (a c) m with ⟨fault | v, m₁⟩
    · rw [he] at hx same
      exact .intro (.containFault message hx) (perform_contained_error he message)
        (perform_contained_error same.symm message)
    · rw [he] at hx same
      exact .intro (.contain message hx) (perform_contained_ok he message)
        (perform_contained_ok same.symm message)

theorem execute_faithful (granted : H.Open) (i : Instruction) {m : Machine}
    (hm : AtLevel H.functions level m) : Faithful c (.act fun c => Step.execute c i) m := by
  cases hi : i.opcode.isCall with
  | false => exact (Step.execute_routine hi).faithful hc hm
  | true => exact (Step.execute_call_routine granted hi).faithful hc hm

theorem runFrame_faithful (granted : H.Open) (name : String) (limit remaining : Nat) {m : Machine}
    (hm : AtLevel H.functions level m) : Faithful c (.frame name limit remaining) m := by
  induction remaining generalizing m with
  | zero =>
    cases hn : m.next? with
    | none => exact .intro (.done hn) (runFrame_done hn 0) (runFrame_done hn 0)
    | some next => exact .intro (.exhausted hn) (runFrame_exhausted hn) (runFrame_exhausted hn)
  | succ remaining ih =>
    cases hn : m.next? with
    | none => exact .intro (.done hn) (runFrame_done hn _) (runFrame_done hn _)
    | some next =>
      obtain ⟨frame, i⟩ := next
      have fetched := hm.steady (fetch_steady hn)
      obtain ⟨⟨xs, hx⟩, same⟩ := execute_faithful hc granted i fetched
      have later := fetched.steady hx.steady
      dsimp only [Task.outcome] at hx same later
      rcases he : perform (Step.execute c i) (fetch frame i m).2 with ⟨fault | u, m₁⟩
      · rw [he] at hx same
        exact .intro (.fault hn hx) (runFrame_fault hn he) (runFrame_fault hn same.symm)
      · rw [he] at hx same later
        obtain ⟨⟨ys, hy⟩, same'⟩ := ih later
        exact .intro (.step hn hx hy) (runFrame_next hn he)
          ((runFrame_next hn same.symm).trans same'.symm)

end

/-! ## Forwarded calls -/

section

variable {functions : List (String × HostFunction)} {level : Nat}

/-- What the standing calls are where handlers may be activated `level` levels
deep. -/
theorem AtLevel.calls {m : Machine} (hm : AtLevel functions level m) :
    m.calls = callsWith (activate level) (2 * functions.length + 1) := by
  rw [Machine.calls, maxHops, hm.level, hm.hosts]

theorem callHandler_faithful {k : Nat} {c : Calls}
    (hc : FaithfulCalls (.upTo functions k) level c) {name : String} {args : Array Value}
    (h : Reenters functions k name args) {m : Machine} (hm : AtLevel functions level m) :
    Faithful c (.act fun c => callHandler c name args) m :=
  (callHandler_routine h.serves fun _ => trivial : Routine _ True True _).faithful hc hm

/-- Calls that are counted down end as the standing calls do if the host forwards
them less often than is counted. -/
theorem callsWith_faithful (acts : ∀ site args receiver (m : Machine), AtLevel functions level m →
      ∃ run, Ends (.act fun c => c.activate site args receiver) m run
        (perform (activate level site args receiver) m))
    {k hops : Nat} (few : k ≤ 2 * functions.length + 1) (enough : k ≤ hops) :
    FaithfulCalls (.upTo functions k) level (callsWith (activate level) hops) := by
  induction k using Nat.strong_induction_on generalizing hops with
  | _ k ih =>
    constructor
    · intro site args receiver m hm
      obtain ⟨run, hr⟩ := acts site args receiver m hm
      refine .intro hr rfl ?_
      show perform (m.calls.activate site args receiver) m = _
      rw [hm.calls]
      rfl
    · rintro name args ⟨j, hj, reenters⟩ m hm
      -- Both count enough for what the call comes to once it is forwarded.
      obtain ⟨hops, rfl⟩ : ∃ n, hops = n + 1 := ⟨hops - 1, by omega⟩
      have inner : FaithfulCalls _ level (callsWith (Machine.activate level) hops) :=
        ih j hj (by omega) (by omega)
      have other : FaithfulCalls _ level
          (callsWith (Machine.activate level) (2 * functions.length)) :=
        ih j hj (by omega) (by omega)
      obtain ⟨⟨run, hr⟩, same⟩ := callHandler_faithful inner reenters hm
      have same' := (callHandler_faithful other reenters hm).same
      refine .intro (.reenter hr) rfl ?_
      show perform (m.calls.reenter name args) m = _
      rw [hm.calls]
      exact same'.trans same.symm

end

/-! ## Activations -/

section

variable {site : HandlerSite} {args : Array Value} {receiver : Value} {m m₁ : Machine}
  {call : CallInfo} {c : Calls}

/-- A handler that is not an error handler within another runs in its frame. -/
theorem perform_guarded {e : Except Fault Value × Machine}
    (outermost : isErrorHandler site.name = true → m.errorHandlers = 0)
    (hs : enterHandler (Frame.enter site args receiver) (m.handling site) = (call, m₁))
    (he : perform (runFrame c site.name m₁.config.stepLimit m₁.config.stepLimit) m₁ = e) :
    perform ((if isErrorHandler site.name then runErrorHandler else runHandler) c site args
      receiver) m = (e.1, (leaveHandler call e.1 e.2).2.handled site) := by
  cases handles : isErrorHandler site.name with
  | false =>
    rw [handling_ordinary handles] at hs
    rw [handled_ordinary handles, if_neg Bool.false_ne_true]
    exact perform_runHandler hs he
  | true =>
    have first := outermost handles
    rw [handling_first handles first] at hs
    rw [handled_error handles, if_pos rfl]
    exact perform_runErrorHandler first (perform_runHandler hs he)

/-- An error handler within another is skipped. -/
theorem perform_nested (handles : isErrorHandler site.name = true) (h : 0 < m.errorHandlers) :
    perform ((if isErrorHandler site.name then runErrorHandler else runHandler) c site args
      receiver) m =
      (.ok .void, (report .debug .call ("skipping nested " ++ site.name) [] m).2) := by
  rw [if_pos handles]
  exact perform_runErrorHandler_nested c site args receiver h

end

theorem AtLevel.started {functions : List (String × HostFunction)} {level : Nat}
    {site : HandlerSite} {args : Array Value} {receiver : Value} {m m₁ : Machine} {call : CallInfo}
    (hm : AtLevel functions (level + 1) m)
    (hs : enterHandler (Frame.enter site args receiver) (m.handling site) = (call, m₁)) :
    AtLevel functions level m₁ := by
  obtain ⟨hosts, config, depth⟩ := enterHandler_started hs
  have deeper := hm.level
  exact ⟨hosts.trans hm.hosts, by rw [config, depth]; omega⟩

/-- Every activation ends. -/
theorem activate_ends {functions : List (String × HostFunction)} (ends : ForwardsEnd functions)
    (level : Nat) (site : HandlerSite) (args : Array Value) (receiver : Value) (m : Machine)
    (hm : AtLevel functions level m) :
    ∃ run, Ends (.act fun c => c.activate site args receiver) m run
      (perform (activate level site args receiver) m) := by
  induction level generalizing site args receiver m with
  | zero =>
    cases stopped : m.stopped with
    | true =>
      rw [activate_stopped 0 site args receiver stopped]
      exact ⟨[], .stopped stopped⟩
    | false =>
      rw [activate_overflow site args receiver stopped (.inl rfl)]
      exact ⟨[], .overflow stopped (Nat.sub_eq_zero_iff_le.mp hm.level)⟩
  | succ level ih =>
    cases stopped : m.stopped with
    | true =>
      rw [activate_stopped _ site args receiver stopped]
      exact ⟨[], .stopped stopped⟩
    | false =>
      have shallow : m.depth < m.config.maxCallDepth := by
        have deep := hm.level
        omega
      have hops : m.maxHops = 2 * functions.length + 1 := by rw [maxHops, hm.hosts]
      rw [activate_succ level site args receiver stopped shallow]
      by_cases outermost : isErrorHandler site.name = true → m.errorHandlers = 0
      · obtain ⟨call, log, events, hs, -⟩ :=
          enterHandler_eq (Frame.enter site args receiver) (m.handling site)
        have within := hm.started hs
        have calls := callsWith_faithful ih (Nat.le_refl _) (Nat.le_of_eq hops.symm)
        obtain ⟨own, ran⟩ := (runFrame_faithful calls (Hosting.upTo_open ends) site.name _ _ within).ends
        rw [perform_guarded outermost hs rfl]
        exact ⟨_, .activate stopped shallow outermost hs ran⟩
      · obtain ⟨handles, nested⟩ := Classical.not_imp.mp outermost
        rw [perform_nested handles (Nat.pos_of_ne_zero nested)]
        exact ⟨_, .nested stopped shallow handles (Nat.pos_of_ne_zero nested)⟩

/-- The calls of a machine end as the standing calls do. -/
theorem calls_faithful {m : Machine} (ends : ForwardsEnd m.hosts) :
    FaithfulCalls (.upTo m.hosts (2 * m.hosts.length + 1)) (m.config.maxCallDepth - m.depth)
      m.calls :=
  callsWith_faithful (activate_ends ends _) (Nat.le_refl _) (Nat.le_refl _)

/-! ## There is no other end -/

/-- A forwarded call is a call by name. -/
theorem perform_standing_reenter {m : Machine} (ends : ForwardsEnd m.hosts) (name : String)
    (args : Array Value) :
    perform (standing.reenter name args) m = perform (callHandler standing name args) m := by
  have hm : AtLevel m.hosts (m.config.maxCallDepth - m.depth) m := ⟨rfl, rfl⟩
  have calls := callsWith_faithful (activate_ends ends (m.config.maxCallDepth - m.depth))
    (Nat.le_succ _) (Nat.le_refl (2 * m.hosts.length))
  show perform (m.calls.reenter name args) m = _
  rw [hm.calls]
  exact (callHandler_faithful calls (reenters_twice ends name args) hm).same

/-- An activation of a running machine. -/
theorem perform_standing_activate {m : Machine} {level : Nat} (hm : AtLevel m.hosts (level + 1) m)
    (running : m.stopped = false) (site : HandlerSite) (args : Array Value) (receiver : Value) :
    perform (standing.activate site args receiver) m =
      perform ((if isErrorHandler site.name then runErrorHandler else runHandler)
        (callsWith (activate level) m.maxHops) site args receiver) m := by
  have deep := hm.level
  show perform (m.calls.activate site args receiver) m = _
  rw [hm.calls]
  exact activate_succ level site args receiver running (by omega)

/-- A task ends as the interpreter does. -/
theorem Ends.outcome {t : Task α} {m : Machine} {run : List Happening}
    {e : Except Fault α × Machine} (h : Ends t m run e) (ends : ForwardsEnd m.hosts) :
    t.outcome standing m = e := by
  induction h with
  | pure | throw | work | write | stop => rfl
  | read _ ih => exact ih ends
  | next ha _ iha ihf =>
    exact (perform_bind_ok (iha ends) _).trans (ihf (ha.steady.hosts ▸ ends))
  | skip _ ih => exact perform_bind_error (ih ends) _
  | contain message _ ih => exact perform_contained_ok (ih ends) message
  | containFault message _ ih => exact perform_contained_error (ih ends) message
  | reenter _ ih => exact (perform_standing_reenter ends _ _).trans (ih ends)
  | stopped hs => exact activate_stopped _ _ _ _ hs
  | overflow running deep => exact activate_overflow _ _ _ running (.inr deep)
  | @nested site args receiver m running shallow handles hn =>
    obtain ⟨level, hl⟩ : ∃ n, m.config.maxCallDepth - m.depth = n + 1 :=
      ⟨m.config.maxCallDepth - m.depth - 1, by omega⟩
    exact (perform_standing_activate ⟨rfl, hl⟩ running _ _ _).trans (perform_nested handles hn)
  | @activate site args receiver m m₁ call own e running shallow outermost hs _ ih =>
    obtain ⟨level, hl⟩ : ∃ n, m.config.maxCallDepth - m.depth = n + 1 :=
      ⟨m.config.maxCallDepth - m.depth - 1, by omega⟩
    have hm : AtLevel m.hosts (level + 1) m := ⟨rfl, hl⟩
    have calls := callsWith_faithful (activate_ends ends level) (Nat.le_refl _)
      (Nat.le_refl m.maxHops)
    have ran := (runFrame_faithful calls (Hosting.upTo_open ends) site.name m₁.config.stepLimit
      m₁.config.stepLimit (hm.started hs)).same
    have ended := ih ((enterHandler_started hs).1 ▸ ends)
    exact (perform_standing_activate hm running _ _ _).trans
      (perform_guarded outermost hs (ran.trans ended))
  | done hn => exact runFrame_done hn _
  | exhausted hn => exact runFrame_exhausted hn
  | step hn hi _ ihi ihr =>
    have fetched := (fetch_steady hn).hosts ▸ ends
    exact (runFrame_next hn (ihi fetched)).trans (ihr (hi.steady.hosts ▸ fetched))
  | fault hn _ ih => exact runFrame_fault hn (ih ((fetch_steady hn).hosts ▸ ends))

/-! ## Every run ends -/

section

variable {m : Machine}

theorem Entry.faithful (entry : Entry) (hosts : ForwardsEnd m.hosts) :
    Faithful m.calls (.act entry.body) m :=
  (entry.body_hosted (Hosting.upTo_open hosts)).faithful (calls_faithful hosts) ⟨rfl, rfl⟩

/-- Whatever the host has a machine run comes to its end. -/
theorem Entry.ends (entry : Entry) (hosts : ForwardsEnd m.hosts) :
    ∃ run, Ends (.act entry.body) m run (perform entry.action m) := by
  rw [entry.perform_action]
  exact (entry.faithful hosts).ends

/-- There is no other end. -/
theorem Entry.eq_perform (entry : Entry) {run : List Happening} {e : Except Fault Value × Machine}
    (h : Ends (.act entry.body) m run e) (hosts : ForwardsEnd m.hosts) :
    e = perform entry.action m := by
  rw [entry.perform_action]
  exact (h.outcome hosts).symm.trans (entry.faithful hosts).same.symm

end

end Lingo
