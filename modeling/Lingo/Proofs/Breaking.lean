import Lingo.Proofs.Alike

/-!
# Where runs break off

A run breaks off where an entry of a property list is written with a key that leads back
to this list, as the text of the key cannot be made out while the list is being written.
It breaks off as well where the log shows a value that contains itself.

* `Ends.broken_iff`: the memory breaks in a task exactly if there is such a write in it;
* `Ends.logs`: what a task adds to the log has an end, if no value contains itself at any
  moment of it;
* `Ends.answered`: what follows for the host.
-/

namespace Lingo

open Machine
open Host (perform)

variable {α : Type} {m m' m₁ m₂ : Machine}

/-! ## Answers -/

theorem answer?_eq_none {a : Action α} :
    Host.answer? a m = none ↔ (perform a m).2.brokeOff = true := by
  unfold Host.answer?
  dsimp only
  split <;> simp_all

namespace Happening

/-- A write whose key cannot be made out while the property list is being written. -/
def Clashes : Happening → Prop
  | write m cell key => PropListMethod.clashes m.memory cell key = true
  | _ => False

/-- There is such a write in a run, at whatever depth. -/
def Breaks (run : List Happening) : Prop :=
  ∃ x : Happening, x.Within run ∧ x.Clashes

theorem breaks_nil : ¬ Breaks [] :=
  fun ⟨x, h, _⟩ => x.not_within_nil h

theorem breaks_cons {x : Happening} {run : List Happening} :
    Breaks (x :: run) ↔ x.Clashes ∨ Breaks x.parts ∨ Breaks run := by
  constructor
  · rintro ⟨y, within, clashes⟩
    rcases within.of_cons with rfl | within | within
    · exact .inl clashes
    · exact .inr (.inl ⟨y, within, clashes⟩)
    · exact .inr (.inr ⟨y, within, clashes⟩)
  · rintro (clashes | ⟨y, within, clashes⟩ | ⟨y, within, clashes⟩)
    · exact ⟨x, .here List.mem_cons_self, clashes⟩
    · exact ⟨y, .inner List.mem_cons_self within, clashes⟩
    · exact ⟨y, within.append_right [x], clashes⟩

theorem breaks_append {xs ys : List Happening} : Breaks (xs ++ ys) ↔ Breaks xs ∨ Breaks ys := by
  constructor
  · rintro ⟨x, within, clashes⟩
    exact within.of_append.imp (⟨x, ·, clashes⟩) (⟨x, ·, clashes⟩)
  · rintro (⟨x, within, clashes⟩ | ⟨x, within, clashes⟩)
    · exact ⟨x, within.append_left ys, clashes⟩
    · exact ⟨x, within.append_right xs, clashes⟩

theorem not_breaks_change (m : Machine) : ¬ Breaks [.change m] := by
  rw [breaks_cons]
  rintro (clashes | within | within)
  · exact clashes
  · exact breaks_nil within
  · exact breaks_nil within

theorem breaks_instruction {m : Machine} {i : Instruction} {parts run : List Happening} :
    Breaks (.instruction m i parts :: run) ↔ Breaks parts ∨ Breaks run :=
  breaks_cons.trans (or_iff_right id)

theorem breaks_activation {m : Machine} {site : HandlerSite} {parts : List Happening} :
    Breaks [.activation m site parts] ↔ Breaks parts :=
  breaks_cons.trans ((or_iff_right id).trans (or_iff_left breaks_nil))

theorem breaks_write {m : Machine} {cell : Nat} {key : Value} :
    Breaks [.write m cell key] ↔ PropListMethod.clashes m.memory cell key = true := by
  rw [breaks_cons]
  exact or_iff_left (not_or.mpr ⟨breaks_nil, breaks_nil⟩)

/-- At no moment of a run does a value contain itself. -/
def Founded (run : List Happening) : Prop :=
  ∀ x : Happening, x.Within run → x.machine.memory.Founded

namespace Founded

variable {x : Happening} {run xs ys : List Happening}

theorem left (h : Founded (xs ++ ys)) : Founded xs :=
  fun y hy => h y (hy.append_left ys)

theorem right (h : Founded (xs ++ ys)) : Founded ys :=
  fun y hy => h y (hy.append_right xs)

theorem head (h : Founded (x :: run)) : x.machine.memory.Founded :=
  h x (.here List.mem_cons_self)

theorem parts (h : Founded (x :: run)) : Founded x.parts :=
  fun y hy => h y (.inner List.mem_cons_self hy)

theorem tail (h : Founded (x :: run)) : Founded run :=
  fun y hy => h y (hy.append_right [x])

end Founded

end Happening

/-! ## Writes with a key -/

theorem fetch_memory {m : Machine} {frame : Frame} {i : Instruction}
    (hn : m.next? = some (frame, i)) : (fetch frame i m).2.memory = m.memory := by
  obtain ⟨rest, log, events, -, he⟩ := fetch_frames hn
  rw [he]

theorem takeResult_memory (m : Machine) : (takeResult m).2.memory = m.memory := by
  unfold Machine.takeResult
  rw [modifyGet_apply]
  split <;> rfl

theorem enterHandler_memory {site : HandlerSite} {args : Array Value} {receiver : Value}
    {m m₁ : Machine} {call : CallInfo}
    (hs : enterHandler (Frame.enter site args receiver) (m.handling site) = (call, m₁)) :
    m₁.memory = m.memory := by
  obtain ⟨_, log, events, he, -⟩ :=
    enterHandler_eq (Frame.enter site args receiver) (m.handling site)
  obtain ⟨-, rfl⟩ := Prod.mk.inj (hs.symm.trans he)
  unfold handling
  split <;> rfl

theorem leaveHandler_memory (call : CallInfo) (outcome : Except Fault Value) (site : HandlerSite)
    (m : Machine) : ((leaveHandler call outcome m).2.handled site).memory = m.memory := by
  obtain ⟨log, events, he, -⟩ := leaveHandler_eq call outcome m
  rw [he]
  unfold handled
  split <;> rfl

theorem breakOffIf_broken (m : Memory) (clash : Bool) :
    (m.breakOffIf clash).broken = true ↔ m.broken = true ∨ clash = true := by
  rw [Memory.breakOffIf, Bool.or_eq_true]

/-- The memory breaks in the course of a task exactly if there is a write whose key clashes
with it. -/
theorem Ends.broken_iff {α : Type} {t : Task α} {m : Machine} {run : List Happening}
    {e : Except Fault α × Machine} (h : Ends t m run e) :
    e.2.memory.broken = true ↔ m.memory.broken = true ∨ Happening.Breaks run := by
  have quiet {run : List Happening} {m m' : Machine} (none : ¬ Happening.Breaks run)
      (same : m'.memory.broken = m.memory.broken) :
      m'.memory.broken = true ↔ m.memory.broken = true ∨ Happening.Breaks run := by
    rw [same, or_iff_left none]
  induction h with
  | pure | throw | stopped | overflow | exhausted => exact quiet Happening.breaks_nil rfl
  | read _ ih | skip _ ih | contain _ _ ih | reenter _ ih => exact ih
  | next _ _ iha ihf =>
    rw [Happening.breaks_append, ← or_assoc]
    exact ihf.trans (or_congr_left iha)
  | work h keeps m => exact quiet (Happening.not_breaks_change m) (keeps m).broken
  | write cell key f m =>
    rw [Happening.breaks_write]
    exact breakOffIf_broken _ _
  | stop | nested => exact quiet (Happening.not_breaks_change _) rfl
  | containFault message _ ih =>
    rw [Happening.breaks_append, or_iff_left (Happening.not_breaks_change _)]
    exact ih
  | @activate site args receiver m m₁ call own e running shallow outermost hs _ ih =>
    rw [leaveHandler_memory, ← enterHandler_memory hs, Happening.breaks_activation,
      Happening.breaks_append, or_iff_left (Happening.not_breaks_change _)]
    exact ih
  | done => exact quiet (Happening.not_breaks_change _) (by rw [takeResult_memory])
  | step hn _ _ ihi ihr =>
    rw [Happening.breaks_instruction, ← fetch_memory hn, ← or_assoc]
    exact ihr.trans (or_congr_left ihi)
  | @fault name limit remaining m m₁ frame i xs fault hn _ ih =>
    have only : Happening.Breaks [.instruction m i xs] ↔ Happening.Breaks xs :=
      Happening.breaks_instruction.trans (or_iff_left Happening.breaks_nil)
    rw [only, ← fetch_memory hn]
    exact ih

/-! ## Lines of the log -/

/-- What has been added to the log has an end, if that holds, and is the tracer's only if the
tracer writes to the log. -/
structure Logs (founded : Prop) (m m' : Machine) : Prop where
  tracer : m'.tracer = m.tracer
  lines : ∀ line ∈ m'.log, line ∈ m.log ∨
    (founded → line.ends = true) ∧ (line.target = .trace → m.tracer = some .log)

namespace Logs

variable {p q : Prop}

theorem quiet (tracer : m'.tracer = m.tracer) (log : m'.log = m.log) : Logs p m m' :=
  ⟨tracer, fun _ hl => .inl (log ▸ hl)⟩

theorem refl (m : Machine) : Logs p m m :=
  quiet rfl rfl

theorem trans (h : Logs p m m₁) (h' : Logs p m₁ m₂) : Logs p m m₂ where
  tracer := h'.tracer.trans h.tracer
  lines line hl := (h'.lines line hl).elim (h.lines line) (h.tracer ▸ .inr ·)

theorem mono (imp : q → p) (h : Logs p m m') : Logs q m m' where
  tracer := h.tracer
  lines line hl := (h.lines line hl).imp_right fun ⟨ends, told⟩ => ⟨ends ∘ imp, told⟩

theorem reportShown (level : LogLevel) {target : LogTarget} {message : Memory → Option String}
    (fields : List (String × String)) (ends : p → (message m.memory).isSome)
    (told : target = .trace → m.tracer = some .log) :
    Logs p m (Machine.reportShown level target message fields m).2 where
  tracer := rfl
  lines line hl := by
    rcases List.mem_cons.mp hl with rfl | hl
    · exact .inr ⟨ends, told⟩
    · exact .inl hl

theorem report (level : LogLevel) {target : LogTarget} (message : String)
    (fields : List (String × String)) (own : target ≠ .trace) (m : Machine) :
    Logs p m (Machine.report level target message fields m).2 :=
  reportShown level fields (fun _ => rfl) fun trace => absurd trace own

theorem notify (event : Memory → TraceEvent) {line : Memory → Option String}
    (fields : List (String × String)) (ends : p → (line m.memory).isSome) :
    Logs p m (Machine.notify event line fields m).2 := by
  unfold Machine.notify
  rw [get_bind_apply]
  rcases tracer : m.tracer with _ | _ | _
  · exact .refl m
  · exact .quiet rfl rfl
  · exact .reportShown _ _ ends fun _ => tracer

end Logs

theorem Primitive.logs {touch : Prop} {u : Update α} (h : Primitive touch u) (m : Machine) :
    Logs m.memory.Founded m (u m).2 := by
  have steady : Steady touch True m (u m).2 := h.steady m
  have quiet (log : (u m).2.log = m.log) : Logs m.memory.Founded m (u m).2 :=
    .quiet steady.tracer log
  cases h with
  | reportShown level target message fields own ends =>
    exact .reportShown level fields (ends _) fun trace => absurd trace own
  | noteSet kind name value =>
    exact .notify _ _ fun founded => founded.line_isSome _ _
  | onTop _ hg => exact quiet ((onTop_unobserving _).log m)
  | pop => exact quiet (pop_unobserving.log m)
  | popMany _ n => exact quiet ((popMany_unobserving n).log m)
  | setMovieProp name value => exact quiet ((setMovieProp_unobserving name value).log m)
  | setMemberProp castLib member prop value =>
    exact quiet ((setMemberProp_unobserving castLib member prop value).log m)
  | onMemory | bindGlobal | pass => exact quiet rfl

theorem fetch_logs {frame : Frame} {i : Instruction} (hn : m.next? = some (frame, i)) :
    Logs m.memory.Founded m (fetch frame i m).2 := by
  obtain ⟨-, rest, hm, -⟩ := next?_running hn
  rw [fetch_eq hm]
  have advanced : Logs m.memory.Founded m { m with frames := frame.advance :: rest } :=
    .quiet rfl rfl
  refine advanced.trans (.notify _ _ fun founded => ?_)
  rw [instructionTrace, Option.isSome_map]
  cases frame.stack.head? with
  | none => rfl
  | some top => exact Memory.display?_isSome (founded top)

theorem enterHandler_logs (frame : Frame) (m : Machine) :
    Logs m.memory.Founded m (enterHandler frame m).2 := by
  let pushed := (pushFrame frame m).2
  let call := pushed.callInfo frame
  let reported := (report .trace .call ("enter " ++ call.name) [depthField pushed.depth] pushed).2
  have run : (enterHandler frame m).2 = (noteEnter call reported).2 := rfl
  have entered : Logs m.memory.Founded m pushed := .quiet rfl rfl
  rw [run]
  refine (entered.trans (.report _ _ _ (by decide) pushed)).trans (.notify _ _ fun founded => ?_)
  exact Option.isSome_map.trans (Memory.mapM_isSome fun v _ => Memory.display?_isSome (founded v))

theorem leaveHandler_logs (call : CallInfo) (outcome : Except Fault Value) (m : Machine) :
    Logs m.memory.Founded m (leaveHandler call outcome m).2 := by
  let noted := (noteEnd call outcome m).2
  let reported := (report .trace .call ("exit " ++ call.name) [depthField noted.depth] noted).2
  have run : (leaveHandler call outcome m).2 = (popFrame reported).2 := rfl
  have told : Logs m.memory.Founded m noted := by
    cases outcome with
    | ok result =>
      exact .notify _ _ fun founded => founded.line_isSome _ _
    | error fault => exact .notify _ _ fun _ => rfl
  rw [run]
  exact (told.trans (.report _ _ _ (by decide) noted)).trans (.quiet rfl rfl)

/-- A task adds only lines with an end to the log, if no value contains itself at any moment
of it. It adds lines of the tracer only if this writes to the log. -/
theorem Ends.logs {t : Task α} {run : List Happening} {e : Except Fault α × Machine}
    (h : Ends t m run e) : Logs (Happening.Founded run) m e.2 := by
  induction h with
  | pure | throw | stopped | overflow | exhausted => exact .refl _
  | read _ ih | skip _ ih | contain _ _ ih | reenter _ ih => exact ih
  | next _ _ iha ihf =>
    exact (iha.mono Happening.Founded.left).trans (ihf.mono Happening.Founded.right)
  | work h _ m => exact (h.logs m).mono Happening.Founded.head
  | write | stop => exact .quiet rfl rfl
  | @containFault _ _ _ m₁ _ fault message _ ih =>
    have reported : Logs True m₁ (report .error .vm (message fault) [] m₁).2 :=
      .report _ _ _ (by decide) m₁
    have stopped : Logs True m₁ (stopWith (message fault) m₁).2 := reported.trans (.quiet rfl rfl)
    exact (ih.mono Happening.Founded.left).trans (stopped.mono fun _ => trivial)
  | nested => exact .report _ _ _ (by decide) _
  | @activate site args receiver m m₁ call own e running shallow outermost hs _ ih =>
    obtain ⟨before, handling⟩ := handling_eq m site
    obtain ⟨after, handled⟩ := handled_eq (leaveHandler call e.1 e.2).2 site
    have entered := enterHandler_logs (Frame.enter site args receiver) (m.handling site)
    rw [hs, handling] at entered
    dsimp only
    rw [handled]
    have counted : Logs m.memory.Founded m { m with errorHandlers := before } := .quiet rfl rfl
    have left : Logs e.2.memory.Founded e.2
        { (leaveHandler call e.1 e.2).2 with errorHandlers := after } :=
      (leaveHandler_logs call e.1 e.2).trans (.quiet rfl rfl)
    exact (((counted.trans entered).mono fun founded => founded.head).trans
      (ih.mono fun founded => founded.parts.left)).trans
        (left.mono fun founded => founded.parts.right.head)
  | done => exact .quiet (takeResult_steady _).tracer (takeResult_unobserving.log _)
  | step hn _ _ ihi ihr =>
    exact (((fetch_logs hn).mono fun founded => founded.head).trans
      (ihi.mono fun founded => founded.parts)).trans (ihr.mono fun founded => founded.tail)
  | fault hn _ ih =>
    exact ((fetch_logs hn).mono fun founded => founded.head).trans
      (ih.mono fun founded => founded.parts)

/-! ## Machines -/

theorem brokeOff_iff : m.brokeOff = true ↔
    m.memory.broken = true ∨ ∃ line ∈ m.log, line.ends = false := by
  simp [Machine.brokeOff]

theorem Ends.breaks_off {t : Task α} {run : List Happening} {e : Except Fault α × Machine}
    (h : Ends t m run e) (breaks : Happening.Breaks run) : e.2.brokeOff = true :=
  brokeOff_iff.mpr (.inl (h.broken_iff.mpr (.inr breaks)))

/-- A task that breaks off writes with a key that leads back to the list that is written, or
a value contains itself at some moment of it. -/
theorem Ends.brokeOff_cases {t : Task α} {run : List Happening} {e : Except Fault α × Machine}
    (h : Ends t m run e) (broke : e.2.brokeOff = true) :
    m.brokeOff = true ∨ Happening.Breaks run ∨ ¬ Happening.Founded run := by
  rcases brokeOff_iff.mp broke with broken | ⟨line, hl, endless⟩
  · rcases h.broken_iff.mp broken with broken | breaks
    · exact .inl (brokeOff_iff.mpr (.inl broken))
    · exact .inr (.inl breaks)
  · by_cases founded : Happening.Founded run
    · rcases h.logs.lines line hl with before | ⟨ends, -⟩
      · exact .inl (brokeOff_iff.mpr (.inr ⟨line, before, endless⟩))
      · rw [ends founded] at endless
        cases endless
    · exact .inr (.inr founded)

/-- What it says of a run whether there is an answer. There is none if an entry of a property
list is written with a key that leads back to this list. There is none only then, or if a
value contains itself at some moment of the run. -/
structure Answered (a : Action α) (m : Machine) (run : List Happening) : Prop where
  breaks : Happening.Breaks run → Host.answer? a m = none
  only : Host.answer? a m = none →
    m.brokeOff = true ∨ Happening.Breaks run ∨ ¬ Happening.Founded run

theorem Ends.answered {t : Task α} {a : Action α} {run : List Happening}
    (h : Ends t m run (perform a m)) : Answered a m run where
  breaks breaks := answer?_eq_none.mpr (h.breaks_off breaks)
  only none := h.brokeOff_cases (answer?_eq_none.mp none)

end Lingo
