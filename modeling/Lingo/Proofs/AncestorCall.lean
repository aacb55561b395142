import Lingo.Proofs.Levels
import Lingo.Proofs.LocalCall

/-!
# Handlers that call their ancestor's

A handler that does nothing but call the handler of its ancestor and return. Its code is
run here instruction by instruction; what is left of it is the call.

* `Aside`: what such a run changes of a machine, and which handlers a tracer is told that it
  starts;
* `HandlerSite.Ascends`: the code of such a handler;
* `runFrame_ascends`: its frame ends as its call does;
* `activate_ascends`: and so does the handler.
-/

namespace Lingo

open Machine
open Host (perform)

variable {m m' m₁ m₂ : Machine}

/-! ## Handlers that are started -/

/-- The call that a tracer is told of, if the event is the start of a handler. -/
def TraceEvent.started? : TraceEvent → Option CallInfo
  | .enter call _ _ => some call
  | _ => none

/-- The calls that a tracer has been told of, in order. -/
def Machine.started (m : Machine) : List CallInfo :=
  m.events.reverse.filterMap TraceEvent.started?

theorem started_notify (event : Memory → TraceEvent) (line : Memory → Option String)
    (fields : List (String × String)) (m : Machine) (h : (event m.memory).started? = none) :
    (notify event line fields m).2.started = m.started := by
  unfold notify
  rw [get_bind_apply]
  rcases m.tracer with _ | _ | _
  · rfl
  · show (event m.memory :: m.events).reverse.filterMap TraceEvent.started? = _
    rw [List.reverse_cons, List.filterMap_append, List.filterMap_cons_none h, List.filterMap_nil,
      List.append_nil]
    rfl
  · rfl

/-- The second machine is the first one with other frames, lists and reports. In
between, a recording tracer was told of the starts of these calls, and no others. -/
structure Aside (m m' : Machine) (calls : List CallInfo) : Prop where
  same : ∃ frames lists log events,
    m' = { m with frames, log, events, memory := { m.memory with lists } }
  started : m.tracer = some .record → m'.started = m.started ++ calls

namespace Aside

theorem refl (m : Machine) : Aside m m [] :=
  ⟨⟨_, _, _, _, rfl⟩, fun _ => (List.append_nil _).symm⟩

theorem quiet {frames : List Frame} {lists : Array (Array Value)} {log : List LogEntry}
    {events : List TraceEvent}
    (is : m' = { m with frames, log, events, memory := { m.memory with lists } })
    (started : m'.started = m.started) : Aside m m' [] :=
  ⟨⟨_, _, _, _, is⟩, fun _ => started.trans (List.append_nil _).symm⟩

theorem trans {calls calls' : List CallInfo} (h : Aside m m₁ calls) (h' : Aside m₁ m₂ calls') :
    Aside m m₂ (calls ++ calls') := by
  obtain ⟨_, _, _, _, rfl⟩ := h.same
  refine ⟨?_, fun recording => ?_⟩
  · obtain ⟨frames, lists, log, events, is⟩ := h'.same
    exact ⟨frames, lists, log, events, is⟩
  · rw [h'.started recording, h.started recording, List.append_assoc]

section

variable {calls : List CallInfo} (h : Aside m m' calls)

include h

theorem stopped : m'.stopped = m.stopped := by
  obtain ⟨_, _, _, _, rfl⟩ := h.same
  rfl

theorem hosts : m'.hosts = m.hosts := by
  obtain ⟨_, _, _, _, rfl⟩ := h.same
  rfl

theorem config : m'.config = m.config := by
  obtain ⟨_, _, _, _, rfl⟩ := h.same
  rfl

theorem chain (id : ObjectId) : m'.memory.heap.chain id = m.memory.heap.chain id := by
  obtain ⟨_, _, _, _, rfl⟩ := h.same
  rfl

theorem levelScript? : m'.levelScript? = m.levelScript? := by
  obtain ⟨_, _, _, _, rfl⟩ := h.same
  rfl

theorem levelSite? : m'.levelSite? = m.levelSite? := by
  obtain ⟨_, _, _, _, rfl⟩ := h.same
  rfl

end

end Aside

/-! ## Instructions that start no handler -/

section

variable {c : Calls} {frame : Frame} {rest : List Frame} {i : Instruction}

/-- The next instruction leads from one machine to another, with these frames and lists. -/
structure Moves (c : Calls) (m m₁ : Machine) (frames : List Frame)
    (lists : Array (Array Value)) : Prop where
  run : ∀ name limit remaining,
    perform (runFrame c name limit (remaining + 1)) m =
      perform (runFrame c name limit remaining) m₁
  aside : Aside m m₁ []
  frames : m₁.frames = frames
  lists : m₁.memory.lists = lists

theorem next?_eq (frames : m.frames = frame :: rest) (running : m.stopped = false)
    (active : frame.returned = false) (current : frame.current? = some i) :
    m.next? = some (frame, i) := by
  rw [next?, running, frames]
  simp only [Bool.false_eq_true, if_false, active, current, Option.map_some]

/-- What a fetch does, in the words of the frame. -/
theorem fetch_quiet (frames : m.frames = frame :: rest) :
    ∃ log events, (fetch frame i m).2 = { m with frames := frame.advance :: rest, log, events } ∧
      ({ m with log, events } : Machine).started = m.started := by
  obtain ⟨log, events, he, -⟩ := noteInstruction_noted frame.cursor i frame.stack
    { m with frames := frame.advance :: rest }
  have quiet := started_notify (fun memory => .instruction frame.cursor i frame.stack.length
    ((frame.stack.take tracedOperands).map memory.image)) (instructionTrace i frame.stack) []
    { m with frames := frame.advance :: rest } rfl
  refine ⟨log, events, (fetch_eq frames i).trans he, ?_⟩
  have noted : (noteInstruction frame.cursor i frame.stack
      { m with frames := frame.advance :: rest }).2.started = m.started := quiet
  rw [he] at noted
  exact noted

/-- An instruction that changes no more than its frame and the lists. -/
theorem moves_plain (frame' : Frame) (lists : Array (Array Value))
    (frames : m.frames = frame :: rest)
    (running : m.stopped = false) (active : frame.returned = false)
    (current : frame.current? = some i)
    (effect : ∀ log events,
      perform (Step.execute c i) { m with frames := frame.advance :: rest, log, events } =
        (.ok (), { m with
          frames := frame' :: rest, log, events, memory := { m.memory with lists } })) :
    ∃ m₁, Moves c m m₁ (frame' :: rest) lists := by
  obtain ⟨log, events, fetched, quiet⟩ := fetch_quiet (i := i) frames
  have executed := effect log events
  rw [← fetched] at executed
  have next := next?_eq frames running active current
  exact ⟨_, fun _ _ _ => runFrame_next next executed, .quiet rfl quiet, rfl, rfl⟩

end

/-! ## Handlers that call their ancestor's -/

namespace HandlerSite

/-- The instruction pushes the name of a handler, in whatever case. -/
inductive PushesName (site : HandlerSite) (name : String) (i : Instruction) : Prop
  | symbol (is : i.opcode = .pushSymb)
    (same : Text.sameName (site.library.names.name i.argument) name = true)
  | literal (is : i.opcode = .pushCons) {s : String} (inTable : ¬ i.argument.toInt < 0)
    (there : site.script.literals[i.argument.toInt.toNat]? = some (.text s))
    (same : Text.sameName s name = true)

/-- All that the handler does is to call the handler with the name of the ancestors of
its first parameter, `me`, and to return. -/
structure Ascends (site : HandlerSite) (name : String) (push get list call : Instruction)
    (rest : List Instruction) : Prop where
  code : site.handler.code.toList = push :: get :: list :: call :: rest
  push : site.PushesName name push
  get : get.opcode = .getParam ∧ get.argument = 0
  list : (list.opcode = .pushArgList ∨ list.opcode = .pushArgListNoRet) ∧ list.argument = 2
  call : call.opcode = .extCall ∧
    Text.sameName (site.library.names.name call.argument) "callAncestor" = true
  rest : ∀ i ∈ rest.head?, i.opcode = .ret ∨ i.opcode = .retFactory

/-- The frame of the handler on an object, at an instruction and with operands. -/
def frameAt (site : HandlerSite) (me : ObjectId) (cursor : Nat) (stack : List Value) : Frame :=
  { Frame.enter site #[.object me] (.object me) with cursor, stack }

theorem current?_frameAt (site : HandlerSite) (me : ObjectId) (cursor : Nat)
    (stack : List Value) :
    (site.frameAt me cursor stack).current? = site.handler.code.toList[cursor]? :=
  Array.getElem?_toList.symm

end HandlerSite

/-- An argument list whose result is used or not. -/
def Value.argumentsIn (cell : Nat) (used : Bool) : Value :=
  if used then .argList cell else .argListNoRet cell

section

variable {c : Calls} {site : HandlerSite} {name : String} {me : ObjectId} {rest : List Frame}
  {n : Nat} {stack : List Value} {i : Instruction}

/-- An instruction of such a handler that changes no more than the operands and the lists. -/
theorem moves_frameAt (stack' : List Value) (lists : Array (Array Value))
    (frames : m.frames = site.frameAt me n stack :: rest) (running : m.stopped = false)
    (current : site.handler.code.toList[n]? = some i)
    (effect : ∀ log events,
      perform (Step.execute c i)
          { m with frames := site.frameAt me (n + 1) stack :: rest, log, events } =
        (.ok (), { m with
          frames := site.frameAt me (n + 1) stack' :: rest, log, events,
          memory := { m.memory with lists } })) :
    ∃ m₁, Moves c m m₁ (site.frameAt me (n + 1) stack' :: rest) lists :=
  moves_plain _ _ frames running rfl ((site.current?_frameAt me n stack).trans current) effect

theorem moves_pushesName (frames : m.frames = site.frameAt me n stack :: rest)
    (running : m.stopped = false) (current : site.handler.code.toList[n]? = some i)
    (pushes : site.PushesName name i) :
    ∃ m₁ v, Moves c m m₁ (site.frameAt me (n + 1) (v :: stack) :: rest) m.memory.lists ∧
      ∀ memory : Memory, Text.sameName (memory.text v) name = true := by
  cases pushes with
  | symbol is same =>
    let v := Value.symbol (site.library.names.name i.argument)
    obtain ⟨m₁, moves⟩ := moves_frameAt (c := c) (v :: stack) m.memory.lists frames running
      current fun log events => by
        rw [Step.execute, is]
        rfl
    exact ⟨m₁, v, moves, fun _ => same⟩
  | @literal is s inTable found same =>
    obtain ⟨m₁, moves⟩ := moves_frameAt (c := c) (.text s :: stack) m.memory.lists frames running
      current fun log events => by
        rw [Step.execute, is]
        show perform (sure (Machine.push (((if i.argument.toInt < 0 then none
          else site.script.literals[i.argument.toInt.toNat]?).map Step.literalValue).getD
            .void))) _ = _
        rw [if_neg inTable, found]
        rfl
    exact ⟨m₁, .text s, moves, fun _ => same⟩

theorem moves_getsMe (frames : m.frames = site.frameAt me n stack :: rest)
    (running : m.stopped = false) (current : site.handler.code.toList[n]? = some i)
    (is : i.opcode = .getParam) (first : i.argument = 0) :
    ∃ m₁, Moves c m m₁ (site.frameAt me (n + 1) (.object me :: stack) :: rest)
      m.memory.lists := by
  refine moves_frameAt _ _ frames running current fun log events => ?_
  have slot (scale : Nat) : (site.frameAt me (n + 1) stack).paramAt (0 / scale) = .object me := by
    rw [Nat.zero_div]
    rfl
  rw [Step.execute, is, first]
  show perform (sure (Machine.push ((site.frameAt me (n + 1) stack).paramAt
    (0 / site.library.slotScale.toInt.toNat)))) _ = _
  rw [slot]
  rfl

theorem moves_list {v w : Value} (frames : m.frames = site.frameAt me n [w, v] :: rest)
    (running : m.stopped = false) (current : site.handler.code.toList[n]? = some i)
    (is : i.opcode = .pushArgList ∨ i.opcode = .pushArgListNoRet) (two : i.argument = 2) :
    ∃ m₁ used, Moves c m m₁
      (site.frameAt me (n + 1) [.argumentsIn m.memory.lists.size used] :: rest)
      (m.memory.lists.push #[v, w]) := by
  rcases is with is | is
  · obtain ⟨m₁, moves⟩ := moves_frameAt (c := c)
      [.argumentsIn m.memory.lists.size true] (m.memory.lists.push #[v, w])
      frames running current fun log events => by
        rw [Step.execute, is, two]
        rfl
    exact ⟨m₁, true, moves⟩
  · obtain ⟨m₁, moves⟩ := moves_frameAt (c := c)
      [.argumentsIn m.memory.lists.size false] (m.memory.lists.push #[v, w])
      frames running current fun log events => by
        rw [Step.execute, is, two]
        rfl
    exact ⟨m₁, false, moves⟩

/-- Nothing but the ancestors' handler is called. -/
theorem perform_callHandler_callAncestor {called : String} {v : Value}
    (running : m.stopped = false) (host : m.hosts.lookup "callancestor" = none)
    (same : Text.sameName called "callAncestor" = true) :
    perform (callHandler c called #[v, .object me]) m =
      perform (callAncestors c (m.memory.text v) #[] [me] .void) m := by
  have folded : Text.asciiLower called = "callancestor" :=
    (Text.sameName_iff.mp same).trans (by decide +kernel)
  have listed : Builtin.table.find? called = some .callAncestor := by
    rw [MethodTable.find?, folded]
    decide +kernel
  have builtin : m.hasBuiltin called = true := by
    rw [hasBuiltin, listed]
    exact Bool.or_true _
  rw [callHandler, perform_get_bind, if_neg (by simp [running]), if_pos builtin, invoke,
    perform_get_bind, folded, host, listed]
  show perform (callAncestorOn c #[v, .object me]) m = _
  rw [callAncestorOn, perform_get_bind]
  rfl

theorem popArguments_frameAt {cell : Nat} {used : Bool}
    (frames : m.frames = site.frameAt me n [.argumentsIn cell used] :: rest) :
    Step.popArguments m =
      ((m.memory.list cell, used), { m with frames := site.frameAt me n [] :: rest }) := by
  rw [Step.popArguments, update_bind_apply, pop_apply frames, get_bind_apply]
  cases used <;> rfl

/-- The instruction that calls the ancestors' handler. -/
theorem execute_callAncestor {cell : Nat} {used : Bool} {v : Value}
    (frames : m.frames = site.frameAt me n [.argumentsIn cell used] :: rest)
    (running : m.stopped = false) (host : m.hosts.lookup "callancestor" = none)
    (is : i.opcode = .extCall)
    (same : Text.sameName (site.library.names.name i.argument) "callAncestor" = true)
    (held : m.memory.list cell = #[v, .object me]) :
    perform (Step.execute c i) m =
      perform (callAncestors c (m.memory.text v) #[] [me] .void >>= fun result =>
        sure (Step.pushResult result used)) { m with frames := site.frameAt me n [] :: rest } := by
  let m₁ : Machine := { m with frames := site.frameAt me n [] :: rest }
  have popped : Step.popArguments m = ((#[v, .object me], used), m₁) :=
    (popArguments_frameAt frames).trans (by rw [held])
  have callee : perform (Step.callee c i #[v, .object me]) m₁ =
      perform (callAncestors c (m₁.memory.text v) #[] [me] .void) m₁ := by
    have named : m₁.name i.argument = site.library.names.name i.argument := rfl
    rw [Step.callee, is]
    dsimp only
    rw [perform_get_bind, named]
    exact perform_callHandler_callAncestor running host same
  rw [Step.execute_call (by rw [is]; rfl), perform_callWith, popped, perform_bind, callee,
    ← perform_bind]

variable (nm : String) (limit remaining : Nat)

/-- The call of the ancestors' handler: a fault of it spreads, and where it ends in void,
its caller goes on. -/
theorem runFrame_calls {cell : Nat} {used : Bool} {v : Value}
    (frames : m.frames = site.frameAt me n [.argumentsIn cell used] :: rest)
    (running : m.stopped = false) (host : m.hosts.lookup "callancestor" = none)
    (current : site.handler.code.toList[n]? = some i) (is : i.opcode = .extCall)
    (same : Text.sameName (site.library.names.name i.argument) "callAncestor" = true)
    (held : m.memory.list cell = #[v, .object me]) :
    ∃ m₁, Aside m m₁ [] ∧ m₁.frames = site.frameAt me (n + 1) [] :: rest ∧
      let e := perform (callAncestors c (m₁.memory.text v) #[] [me] .void) m₁
      (∀ fault, e.1 = .error fault →
        (perform (runFrame c nm limit (remaining + 1)) m).1 = .error fault) ∧
      (e.1 = .ok .void → e.2.frames = m₁.frames → ∃ m₂ stack,
        perform (runFrame c nm limit (remaining + 1)) m =
          perform (runFrame c nm limit remaining) m₂ ∧
        Aside e.2 m₂ [] ∧ m₂.frames = site.frameAt me (n + 1) stack :: rest ∧
        ∀ v ∈ stack, v = .void) := by
  have hn := next?_eq frames running rfl ((site.current?_frameAt me n _).trans current)
  obtain ⟨log, events, fetched, quiet⟩ := fetch_quiet (i := i) frames
  -- the machine as the instruction finds it, and the caller's frame while its call goes on
  let m₀ : Machine :=
    { m with frames := site.frameAt me (n + 1) [.argumentsIn cell used] :: rest, log, events }
  let m₁ : Machine := { m₀ with frames := site.frameAt me (n + 1) [] :: rest }
  have frames₀ : m₀.frames = site.frameAt me (n + 1) [.argumentsIn cell used] :: rest := rfl
  have executed :
      perform (Step.execute c i) (fetch (site.frameAt me n [.argumentsIn cell used]) i m).2 =
        perform (callAncestors c (m₁.memory.text v) #[] [me] .void >>= fun result =>
          sure (Step.pushResult result used)) m₁ := by
    rw [fetched]
    exact execute_callAncestor frames₀ running host is same held
  refine ⟨m₁, .quiet rfl quiet, rfl, fun fault failed => ?_, fun ended frames' => ?_⟩
  · rcases he : perform (callAncestors c (m₁.memory.text v) #[] [me] .void) m₁ with ⟨_, m₂⟩
    rw [he] at failed
    obtain rfl : _ = Except.error fault := failed
    rw [runFrame_fault hn (executed.trans (perform_bind_error he _))]
  · rcases he : perform (callAncestors c (m₁.memory.text v) #[] [me] .void) m₁ with ⟨_, m₂⟩
    rw [he] at ended frames'
    obtain rfl : _ = Except.ok Value.void := ended
    have pushed := executed.trans (perform_bind_ok he _)
    cases used with
    | true =>
      have push : (Machine.push .void m₂).2 =
          { m₂ with frames := site.frameAt me (n + 1) [.void] :: rest } :=
        onTop_apply _ frames'
      have quiet : (Machine.push .void m₂).2.started = m₂.started := by
        rw [push]
        rfl
      exact ⟨(Machine.push .void m₂).2, [.void], runFrame_next hn pushed, .quiet push quiet,
        congrArg Machine.frames push, by simp⟩
    | false =>
      exact ⟨m₂, [], runFrame_next hn pushed, .refl m₂, frames', by simp⟩

/-- The instruction that returns from such a handler leaves void as its result. -/
theorem moves_returns (frames : m.frames = site.frameAt me n stack :: rest)
    (running : m.stopped = false) (void : ∀ v ∈ stack, v = .void)
    (current : site.handler.code.toList[n]? = some i)
    (is : i.opcode = .ret ∨ i.opcode = .retFactory) :
    ∃ m₁ frame, Moves c m m₁ (frame :: rest) m.memory.lists ∧ frame.returned = true ∧
      frame.result = .void := by
  have there := (site.current?_frameAt me n stack).trans current
  rcases is with is | is
  · let frame := (site.frameAt me (n + 1) stack.tail).finish .void
    obtain ⟨m₁, moves⟩ := moves_plain (c := c) frame m.memory.lists frames running
      rfl there fun log events => by
        rw [Step.execute, is]
        cases stack with
        | nil => rfl
        | cons v _ =>
          obtain rfl := void v (List.mem_cons_self ..)
          rfl
    exact ⟨m₁, frame, moves, rfl, rfl⟩
  · let frame := (site.frameAt me (n + 1) stack).finish .void
    obtain ⟨m₁, moves⟩ := moves_plain (c := c) frame m.memory.lists frames running
      rfl there fun log events => by
        rw [Step.execute, is]
        rfl
    exact ⟨m₁, frame, moves, rfl, rfl⟩

/-- A frame that has nothing more to run ends with its result. -/
theorem runFrame_ends {frame : Frame} (frames : m.frames = frame :: rest) (done : m.next? = none)
    (void : frame.result = .void) :
    ∃ m₁, perform (runFrame c nm limit remaining) m = (.ok .void, m₁) ∧
      Aside m m₁ [] ∧ m₁.frames.tail = rest := by
  have taken : takeResult m =
      (.void, { m with frames := { frame with result := .void } :: rest }) := by
    rw [takeResult, modifyGet_apply, frames]
    show (frame.result, _) = _
    rw [void]
  rw [runFrame_done done, taken]
  exact ⟨_, rfl, .quiet rfl rfl, rfl⟩

/-- The end of such a handler, behind the call. -/
theorem runFrame_returns (frames : m.frames = site.frameAt me n stack :: rest)
    (running : m.stopped = false) (void : ∀ v ∈ stack, v = .void)
    (returns : ∀ i ∈ site.handler.code.toList[n]?, i.opcode = .ret ∨ i.opcode = .retFactory)
    (enough : site.handler.code.toList.length ≤ n + remaining) :
    ∃ m₁, perform (runFrame c nm limit remaining) m = (.ok .void, m₁) ∧
      Aside m m₁ [] ∧ m₁.frames.tail = rest := by
  cases current : site.handler.code.toList[n]? with
  | none =>
    have done : m.next? = none := by
      rw [next?, running, frames]
      simp only [Bool.false_eq_true, if_false, site.current?_frameAt, current, Option.map_none]
      exact if_neg Bool.false_ne_true
    exact runFrame_ends nm limit remaining frames done rfl
  | some i =>
    obtain ⟨k, rfl⟩ : ∃ k, remaining = k + 1 := by
      have inside := (List.getElem?_eq_some_iff.mp current).1
      exact ⟨remaining - 1, by omega⟩
    obtain ⟨m₁, frame, moves, returned, result⟩ :=
      moves_returns (c := c) frames running void current (returns i current)
    have done : m₁.next? = none := by
      rw [next?, moves.frames]
      simp only [returned, if_true, ite_self]
    obtain ⟨m₂, ended, quiet, popped⟩ :=
      runFrame_ends (c := c) nm limit k moves.frames done result
    exact ⟨m₂, (moves.run ..).trans ended, moves.aside.trans quiet, popped⟩

variable {push get list call : Instruction} {tail : List Instruction}

/-- The frame of such a handler ends as its call does, in void or with a fault. -/
theorem runFrame_ascends (ascends : site.Ascends name push get list call tail)
    (frames : m.frames = site.frameAt me 0 [] :: rest) (running : m.stopped = false)
    (host : m.hosts.lookup "callancestor" = none)
    (enough : site.handler.code.toList.length ≤ remaining) :
    ∃ m₁ called, Aside m m₁ [] ∧ m₁.frames = site.frameAt me 4 [] :: rest ∧
      Text.sameName called name = true ∧
      let e := perform (callAncestors c called #[] [me] .void) m₁
      let e' := perform (runFrame c nm limit remaining) m
      (∀ fault, e.1 = .error fault → e'.1 = .error fault) ∧
      (e.1 = .ok .void → e.2.frames = m₁.frames → e.2.stopped = false →
        ∃ m₂, e' = (.ok .void, m₂) ∧ Aside e.2 m₂ [] ∧ m₂.frames.tail = rest) := by
  have code := ascends.code
  obtain ⟨k, rfl⟩ : ∃ k, remaining = k + 4 := by
    rw [code] at enough
    simp only [List.length_cons] at enough
    exact ⟨remaining - 4, by omega⟩
  obtain ⟨a, v, first, named⟩ := moves_pushesName (c := c) frames running (by rw [code]; rfl)
    ascends.push
  obtain ⟨b, second⟩ := moves_getsMe (c := c) first.frames (first.aside.stopped.trans running)
    (by rw [code]; rfl) ascends.get.1 ascends.get.2
  have asideB := first.aside.trans second.aside
  obtain ⟨d, used, third⟩ := moves_list (c := c) second.frames (asideB.stopped.trans running)
    (by rw [code]; rfl) ascends.list.1 ascends.list.2
  have asideD := asideB.trans third.aside
  have held : d.memory.list b.memory.lists.size = #[v, .object me] := by
    rw [Memory.list, third.lists, Array.getElem?_push_size, Option.getD_some]
  obtain ⟨m₁, aside, frames₁, fails, returns⟩ := runFrame_calls (c := c) nm limit k
    third.frames (asideD.stopped.trans running)
    (by rw [asideD.hosts]; exact host) (by rw [code]; rfl) ascends.call.1 ascends.call.2 held
  rw [first.run, second.run, third.run]
  refine ⟨m₁, m₁.memory.text v, asideD.trans aside, frames₁, named _, fails,
    fun ended kept run => ?_⟩
  obtain ⟨m₂, stack, continued, quiet, frames₂, void⟩ := returns ended kept
  have behind : site.handler.code.toList[4]? = tail.head? := by
    rw [code, List.head?_eq_getElem?]
    rfl
  obtain ⟨m₃, finished, last, popped⟩ := runFrame_returns (c := c) nm limit k
    frames₂ (quiet.stopped.trans run) void (by rw [behind]; exact ascends.rest) (by omega)
  exact ⟨m₃, continued.trans finished, quiet.trans last, popped⟩

end

/-! ## Activations -/

section

variable {site : HandlerSite} {me : ObjectId}

theorem enterHandler_aside (site : HandlerSite) (me : ObjectId) (m : Machine) :
    let call := site.callInfo #[.object me] (.object me) (m.depth + 1)
    ∃ m₁, enterHandler (site.frameAt me 0 []) m = (call, m₁) ∧ Aside m m₁ [call] ∧
      m₁.frames = site.frameAt me 0 [] :: m.frames := by
  intro call
  obtain ⟨call', log, events, he, -⟩ := enterHandler_eq (site.frameAt me 0 []) m
  obtain rfl : call' = call := (congrArg Prod.fst he).symm
  refine ⟨_, he, ⟨⟨_, m.memory.lists, log, events, rfl⟩, fun recording => ?_⟩, rfl⟩
  have told : (enterHandler (site.frameAt me 0 []) m).2.events =
      call.first m.memory :: m.events :=
    (enterHandler_recording site #[.object me] (.object me) recording).2
  rw [he] at told
  show events.reverse.filterMap TraceEvent.started? = _
  rw [show events = _ from told, List.reverse_cons, List.filterMap_append]
  rfl

theorem leaveHandler_aside (call : CallInfo) (result : Value) (m : Machine) :
    Aside m (leaveHandler call (.ok result) m).2 [] ∧
      (leaveHandler call (.ok result) m).2.frames = m.frames.tail := by
  obtain ⟨log, events, left, -⟩ := leaveHandler_eq call (.ok result) m
  have quiet : (leaveHandler call (.ok result) m).2.started = m.started := by
    show (noteExit call result m).2.started = m.started
    exact started_notify _ _ _ m rfl
  exact ⟨.quiet left quiet, congrArg Machine.frames left⟩

/-- How the call of a handler, from the machine `m`, ends where all it does is to call
another one, from `m₁`: a fault of the other one spreads, and if that ends in void, so does
the call. -/
structure Relays (m m₁ : Machine) (call : CallInfo) (e e' : Except Fault Value × Machine) :
    Prop where
  fails : ∀ fault, e.1 = .error fault → e'.1 = .error fault
  returns : ∀ {calls m₂}, e = (.ok .void, m₂) → Aside m₁ m₂ calls → m₂.frames = m₁.frames →
    ∃ m', e' = (.ok .void, m') ∧ Aside m m' (call :: calls) ∧ m'.frames = m.frames

variable {name : String} {push get list call : Instruction} {tail : List Instruction}

/-- What such a handler does when it is activated is to call its ancestors' handler. -/
theorem activate_ascends (remaining : Nat) (ascends : site.Ascends name push get list call tail)
    (running : m.stopped = false) (host : m.hosts.lookup "callancestor" = none)
    (ordinary : isErrorHandler site.name = false) (shallow : m.depth < m.config.maxCallDepth)
    (enough : site.handler.code.toList.length ≤ m.config.stepLimit) :
    let info := site.callInfo #[.object me] (.object me) (m.depth + 1)
    ∃ m₁ called, Aside m m₁ [info] ∧ m₁.frames = site.frameAt me 4 [] :: m.frames ∧
      Text.sameName called name = true ∧
      Relays m m₁ info
        (perform (callAncestors (callsWith (activate remaining) m.maxHops) called #[] [me] .void)
          m₁)
        (perform (activate (remaining + 1) site #[.object me] (.object me)) m) := by
  intro info
  let c := callsWith (activate remaining) m.maxHops
  obtain ⟨m₀, entered, aside₀, frames₀⟩ := enterHandler_aside site me m
  obtain ⟨m₁, called, aside₁, frames₁, named, fails, returns⟩ := runFrame_ascends (c := c)
    site.name m₀.config.stepLimit m₀.config.stepLimit ascends frames₀
    (aside₀.stopped.trans running) (by rw [aside₀.hosts]; exact host)
    (by rw [aside₀.config]; exact enough)
  have run {e : Except Fault Value × Machine}
      (he : perform (runFrame c site.name m₀.config.stepLimit m₀.config.stepLimit) m₀ = e) :
      perform (activate (remaining + 1) site #[.object me] (.object me)) m =
        (e.1, (leaveHandler info e.1 e.2).2) := by
    rw [activate_succ remaining site _ _ running shallow, ordinary, if_neg Bool.false_ne_true]
    exact perform_runHandler entered he
  refine ⟨m₁, called, aside₀.trans aside₁, frames₁, named, fun fault failed => ?_,
    fun {calls m₂} ended aside₂ kept => ?_⟩
  · rw [run rfl]
    exact fails fault failed
  · rw [show perform (callAncestors c called #[] [me] .void) m₁ = (.ok .void, m₂) from ended]
      at returns
    have still := aside₂.stopped.trans ((aside₀.trans aside₁).stopped.trans running)
    obtain ⟨m₃, finished, quiet, popped⟩ := returns rfl kept still
    obtain ⟨left, frames'⟩ := leaveHandler_aside info .void m₃
    rw [run finished]
    refine ⟨_, rfl, ?_, frames'.trans popped⟩
    have whole := ((aside₀.trans aside₁).trans aside₂).trans (quiet.trans left)
    simpa using whole

end

end Lingo
