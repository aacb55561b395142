import Lingo.Proofs.Ascent
import Lingo.Proofs.Straight

/-!
# Handlers that call themselves

A handler whose code comes straight to a call of the handler itself has an activation for
every level there is, and the call on the last one fails. Its fault ends them all.

* `HandlerSite.Dives`: the code of such a handler;
* `runFrame_dives`: its frame comes to the call, and fails with it;
* `activate_dives`: what the levels that are left execute, by induction on their number;
* `recursion_overflows`: what follows for a call by the host.
-/

namespace Lingo

open Machine
open Host (perform)

/-! ## Finding the handler -/

namespace Machine

variable {m m' : Machine} {name name' : String} {site : HandlerSite}

theorem findHandler?_sameName (same : Text.sameName name' name = true) :
    m.findHandler? name' = m.findHandler? name := by
  simp only [findHandler?, CastLibraries.findHandler?, HandlerSite.findInLibrary?,
    HandlerSite.find?_sameName same]

theorem hasBuiltin_sameName (same : Text.sameName name' name = true) :
    m.hasBuiltin name' = m.hasBuiltin name := by
  rw [hasBuiltin, hasBuiltin, MethodTable.find?, MethodTable.find?, Text.sameName_iff.mp same]

/-- A name that is no function's calls the handler with the name. -/
theorem perform_callHandler_site (c : Calls) (args : Array Value) (running : m.stopped = false)
    (free : m.hasBuiltin name = false) (found : m.findHandler? name = some site) :
    perform (callHandler c name args) m = perform (c.activate site args .void) m := by
  rw [callHandler, perform_get_bind, running, free, found]
  rfl

end Machine

/-! ## The code of such a handler -/

/-- The handler executes straight-line code, makes an empty argument list and calls itself
with it. -/
structure HandlerSite.Dives (site : HandlerSite) (body : List Instruction)
    (list call : Instruction) : Prop where
  code : ∃ rest, site.handler.code.toList = body ++ list :: call :: rest
  straight : ∀ i ∈ body, i.opcode.isStraight = true
  list : list.opcode = .pushArgList ∧ list.argument = 0
  call : call.opcode = .extCall ∧
    Text.sameName (site.library.names.name call.argument) site.name = true

/-- The machine runs and finds the handler by its name, which no function has, nor do the
handlers that are not run within each other. The handler comes to its call of itself within
the limit of instructions. -/
structure Machine.Recursive (m : Machine) (site : HandlerSite) (body : List Instruction)
    (list call : Instruction) : Prop where
  running : m.stopped = false
  free : m.hasBuiltin site.name = false
  ordinary : isErrorHandler site.name = false
  found : m.findHandler? site.name = some site
  dives : site.Dives body list call
  enough : body.length + 2 ≤ m.config.stepLimit

section

variable {m m' : Machine} {site : HandlerSite} {body : List Instruction}
  {list call : Instruction}

theorem Machine.Recursive.of_base (h : m.Recursive site body list call)
    (same : m'.base = m.base) : m'.Recursive site body list call where
  running := (of_same_base (f := stopped) (fun _ => rfl) same).trans h.running
  free := (of_same_base (f := (·.hasBuiltin site.name)) (fun _ => rfl) same).trans h.free
  ordinary := h.ordinary
  found := (congrFun (of_same_base findHandler?_base same) _).trans h.found
  dives := h.dives
  enough := by
    rw [of_same_base (f := config) (fun _ => rfl) same]
    exact h.enough

variable {c : Calls}

/-- An empty argument list is made and pushed. -/
theorem execute_pushArgList {top : Frame} {outer : List Frame} (frames : m.frames = top :: outer)
    (c : Calls) (is : list.opcode = .pushArgList) (none : list.argument = 0) :
    ∃ m₁ cell, perform (Step.execute c list) m = (.ok (), m₁) ∧ Straight m m₁ ∧
      m₁.frames = top.push (.argList cell) :: outer ∧ m₁.memory.list cell = #[] := by
  let lists := m.memory.lists
  let m₁ : Machine := { m with
    frames := top.push (.argList lists.size) :: outer
    memory := { m.memory with lists := lists.push #[] } }
  have executed : perform (Step.execute c list) m = (.ok (), m₁) := by
    rw [show m = { m with frames := top :: outer } by rw [← frames], Step.execute, is, none]
    rfl
  have held : m₁.memory.list lists.size = #[] := by
    rw [Memory.list, Array.getElem?_push_size, Option.getD_some]
  exact ⟨m₁, lists.size, executed, ⟨rfl, by rw [frames]; rfl, by rw [frames]; rfl, rfl⟩, rfl, held⟩

/-- A call by name with an empty argument list. -/
theorem execute_extCall {top : Frame} {outer : List Frame} {cell : Nat}
    (frames : m.frames = top.push (.argList cell) :: outer) (held : m.memory.list cell = #[])
    (c : Calls) (is : call.opcode = .extCall) :
    ∃ m₁, Straight m m₁ ∧ ∀ fault m₂,
      perform (callHandler c (top.site.library.names.name call.argument) #[]) m₁ =
        (.error fault, m₂) →
      perform (Step.execute c call) m = (.error fault, m₂) := by
  let m₁ : Machine := { m with frames := top :: outer }
  have popped : Step.popArguments m = ((#[], true), m₁) := by
    rw [Step.popArguments, update_bind_apply, pop_apply frames, get_bind_apply]
    show ((m.memory.list cell, true), m₁) = _
    rw [held]
  refine ⟨m₁, .of_top frames rfl, fun fault m₂ failed => ?_⟩
  rw [Step.execute_call (by rw [is]; rfl), perform_callWith, popped]
  refine perform_bind_error ?_ _
  have named : m₁.name call.argument = top.site.library.names.name call.argument := rfl
  rw [Step.callee, is]
  dsimp only
  rw [perform_get_bind, named]
  exact failed

/-- The frame of the handler comes to the call, and fails as the call does. -/
theorem runFrame_dives (recursive : m.Recursive site body list call) (here : m.At site 0)
    (c : Calls) (name : String) (limit k : Nat) :
    ∃ m₁, Ran m m₁ (body ++ [list, call]) ∧ ∀ fault m₂,
      perform (c.activate site #[] .void) m₁ = (.error fault, m₂) →
      perform (runFrame c name limit (body.length + 2 + k)) m = (.error fault, m₂) := by
  have dives := recursive.dives
  obtain ⟨rest, code⟩ := dives.code
  obtain ⟨a, ranA, goes⟩ := runFrame_straight c name limit dives.straight here
    (List.drop_zero.trans code)
  -- the argument list
  have hereA := ranA.at here
  obtain ⟨topA, outer, -, owner, nextA, fetchedA, framesA, -⟩ :=
    hereA.fetch (i := list) (by rw [code]; simp)
  obtain ⟨b, cell, listed, straight, framesB, held⟩ :=
    execute_pushArgList framesA c dives.list.1 dives.list.2
  have ranB : Ran m b (body ++ [list]) := ranA.trans (fetchedA.trans straight.ran)
  -- the call
  have hereB := ranB.at here
  obtain ⟨topB, _, framesB', -, nextB, fetchedB, framesC, memory⟩ :=
    hereB.fetch (i := call) (by rw [code]; simp)
  obtain ⟨rfl, rfl⟩ := List.cons.inj (framesB.symm.trans framesB')
  obtain ⟨m₁, straight', fails⟩ := execute_extCall
    (show _ = topA.advance.advance.push (.argList cell) :: outer from framesC)
    (by rw [memory]; exact held) c dives.call.1
  have ran : Ran m m₁ (body ++ [list] ++ [call]) := ranB.trans (fetchedB.trans straight'.ran)
  rw [List.append_assoc] at ran
  refine ⟨m₁, ran, fun fault m₂ failed => ?_⟩
  have recursive₁ := recursive.of_base ran.base
  have same : Text.sameName (topA.site.library.names.name call.argument) site.name = true := by
    rw [owner]
    exact dives.call.2
  have callee := perform_callHandler_site c #[] recursive₁.running
    ((hasBuiltin_sameName same).trans recursive₁.free)
    ((findHandler?_sameName same).trans recursive₁.found)
  rw [Nat.add_assoc, goes, Nat.add_comm 2 k, runFrame_next nextA listed]
  exact runFrame_fault nextB (fails _ _ (callee.trans failed))

/-- An activation of the handler executes its code up to the call, which is one level deeper,
and fails as the next activation does. -/
theorem activate_once (recursive : m.Recursive site body list call)
    (shallow : m.depth < m.config.maxCallDepth) (remaining : Nat) (args : Array Value)
    (receiver : Value) :
    ∃ m₁, m₁.base = m.base ∧ m₁.depth = m.depth + 1 ∧
      (m.tracer = some .record → m₁.recorded = (body ++ [list, call]).reverse ++ m.recorded) ∧
      ∀ fault m₂, perform (activate remaining site #[] .void) m₁ = (.error fault, m₂) →
        m₂.frames = m₁.frames →
        ∃ m', perform (activate (remaining + 1) site args receiver) m = (.error fault, m') ∧
          m'.base = m₂.base ∧ m'.frames = m.frames ∧ m'.recorded = m₂.recorded := by
  obtain ⟨info, log, events, entered, started⟩ :=
    enterHandler_eq (Frame.enter site args receiver) m
  rw [entered] at started
  let m₀ : Machine :=
    { m with frames := Frame.enter site args receiver :: m.frames, log, events }
  have here : m₀.At site 0 := ⟨recursive.running, rfl⟩
  obtain ⟨k, enough⟩ := Nat.exists_eq_add_of_le recursive.enough
  have recursive₀ : m₀.Recursive site body list call := recursive.of_base rfl
  obtain ⟨m₁, ran, fails⟩ := runFrame_dives recursive₀ here
    (callsWith (activate remaining) m.maxHops) site.name m.config.stepLimit k
  have below : m₁.frames.tail = m.frames := ran.below
  have depth : m₁.depth = m.depth + 1 := by
    obtain ⟨_, outer, frames, -⟩ := (ran.at here).top
    rw [frames, List.tail_cons] at below
    rw [Machine.depth, frames, below]
    rfl
  refine ⟨m₁, ran.base, depth, fun recording => ?_, fun fault m₂ failed kept => ?_⟩
  · exact (ran.recorded recording).trans (congrArg _ started)
  · have run := fails fault m₂ failed
    rw [← enough] at run
    obtain ⟨log', events', left, ended⟩ := leaveHandler_eq info (.error fault) m₂
    refine ⟨(leaveHandler info (.error fault) m₂).2, ?_, ?_, ?_, ended⟩
    · rw [activate_succ remaining site _ _ recursive.running shallow, recursive.ordinary,
        if_neg Bool.false_ne_true]
      exact perform_runHandler entered run
    · rw [left]
      rfl
    · rw [left]
      exact (congrArg List.tail kept).trans below

/-- The handler on the levels that are left: it executes its code once on each of them, and
there is no level for the last call. -/
theorem activate_dives (recursive : m.Recursive site body list call) (remaining : Nat)
    (room : m.depth + remaining = m.config.maxCallDepth) (args : Array Value)
    (receiver : Value) :
    ∃ m', perform (activate remaining site args receiver) m =
        (.error (.callStackOverflow site.name m.config.maxCallDepth), m') ∧
      m'.base = m.base ∧ m'.frames = m.frames ∧
      (m.tracer = some .record → m'.recorded =
        (List.replicate remaining (body ++ [list, call])).flatten.reverse ++ m.recorded) := by
  induction remaining generalizing m args receiver with
  | zero =>
    exact ⟨m, activate_overflow site _ _ recursive.running (.inl rfl), rfl, rfl, fun _ => rfl⟩
  | succ remaining ih =>
    obtain ⟨m₁, base, depth, recorded, fails⟩ :=
      activate_once recursive (by omega) remaining args receiver
    have config : m₁.config = m.config := of_same_base (f := config) (fun _ => rfl) base
    have tracer : m₁.tracer = m.tracer := of_same_base (f := tracer) (fun _ => rfl) base
    obtain ⟨m₂, failed, base₂, frames₂, recorded₂⟩ := ih (recursive.of_base base)
      (by rw [config, depth]; omega) #[] .void
    rw [config] at failed
    obtain ⟨m', ended, base', frames', recorded'⟩ := fails _ m₂ failed frames₂
    refine ⟨m', ended, base'.trans (base₂.trans base), frames', fun recording => ?_⟩
    rw [recorded', recorded₂ (tracer.trans recording), recorded recording]
    simp only [List.replicate_succ, List.flatten_cons, List.reverse_append, List.append_assoc]

/-- The host calls the handler while no other is active. -/
theorem call_dives {name : String} (recursive : m.Recursive site body list call)
    (same : Text.sameName name site.name = true) (idle : m.frames = []) (args : Array Value) :
    ∃ m', perform (Host.call name args) m =
        (.error (.callStackOverflow site.name m.config.maxCallDepth), m') ∧
      m'.base = m.base ∧ m'.frames = [] ∧
      (m.tracer = some .record → m'.recorded =
        (List.replicate m.config.maxCallDepth (body ++ [list, call])).flatten.reverse ++
          m.recorded) := by
  have depth : m.depth = 0 := by rw [Machine.depth, idle]; rfl
  obtain ⟨m', failed, base, frames, recorded⟩ := activate_dives recursive m.config.maxCallDepth
    (by rw [depth, Nat.zero_add]) args .void
  refine ⟨m', ?_, base, frames.trans idle, recorded⟩
  rw [Host.call, perform_get_bind, perform_callHandler_site m.calls args recursive.running
    ((hasBuiltin_sameName same).trans recursive.free)
    ((findHandler?_sameName same).trans recursive.found)]
  show perform (activate (m.config.maxCallDepth - m.depth) site args .void) m = _
  rw [depth]
  exact failed

end

/-- Where a handler comes straight to a call of itself, the host's call of it executes its
code once on every level that there is, fails since there is no other, and leaves no frame
and a machine that is not stopped. What a recording tracer is told does not change how it
ends, and these are all instructions that it is told of, in this order. -/
theorem recursion_overflows {m : Machine} {site : HandlerSite} {body : List Instruction}
    {list call : Instruction} {name : String} (recursive : m.Recursive site body list call)
    (same : Text.sameName name site.name = true) (idle : m.frames = []) (args : Array Value) :
    let overflow : Except Fault Value :=
      .error (.callStackOverflow site.name m.config.maxCallDepth)
    let e := perform (Host.call name args) m
    let watched := perform (Host.call name args) (m.watched (some .record) [] [])
    e.1 = overflow ∧ e.2.frames = [] ∧ e.2.stopped = false ∧ e.2.base = m.base ∧
      watched.1 = overflow ∧ watched.2.recorded.reverse =
        (List.replicate m.config.maxCallDepth (body ++ [list, call])).flatten := by
  intro overflow e watched
  obtain ⟨m', ended, base, frames, -⟩ := call_dives recursive same idle args
  have recursive' : (m.watched (some .record) [] []).Recursive site body list call :=
    { recursive with }
  obtain ⟨m₁, ended₁, -, -, recorded⟩ := call_dives recursive' same idle args
  rw [show e = _ from ended, show watched = _ from ended₁]
  refine ⟨rfl, frames, ?_, base, rfl, ?_⟩
  · exact (of_same_base (f := stopped) (fun _ => rfl) base).trans recursive.running
  · rw [recorded rfl, List.reverse_append, List.reverse_reverse]
    rfl

/-- The code of a handler that counts its activations in a global, before it calls itself. -/
def divingCode : List Instruction :=
  [⟨0, .getGlobal, 0x49, 1⟩, ⟨2, .pushInt8, 0x41, 1⟩, ⟨4, .add, 0x05, 0⟩, ⟨5, .setGlobal, 0x4F, 1⟩]

/-- The call at the end. -/
def divingCall : List Instruction :=
  [⟨7, .pushArgList, 0x43, 0⟩, ⟨9, .extCall, 0x57, 0⟩]

/-- A machine with five levels whose movie has this handler. -/
def divingMachine : Machine where
  config := { maxCallDepth := 5 }
  movie := some {
    names := ⟨#["dive", "gDepth"]⟩
    scripts := #[{
      member := 1
      kind := .movie
      handlers := #[{ nameId := 0, code := (divingCode ++ divingCall).toArray }] }] }

theorem divingMachine_recursive : ∃ site, site.name = "dive" ∧
    divingMachine.Recursive site divingCode ⟨7, .pushArgList, 0x43, 0⟩ ⟨9, .extCall, 0x57, 0⟩ := by
  obtain ⟨site, found, named, code, library⟩ : ∃ site,
      divingMachine.findHandler? "dive" = some site ∧ site.name = "dive" ∧
      site.handler.code = (divingCode ++ divingCall).toArray ∧
      site.library.names.name 0 = "dive" :=
    ⟨_, (Option.some_get (by decide +kernel)).symm, by decide +kernel, by decide +kernel,
      by decide +kernel⟩
  have dives : site.Dives divingCode ⟨7, .pushArgList, 0x43, 0⟩ ⟨9, .extCall, 0x57, 0⟩ :=
    ⟨⟨[], by rw [code]; rfl⟩, by decide, ⟨rfl, rfl⟩, rfl, by
      rw [named, library]
      exact Text.sameName_refl _⟩
  exact ⟨site, named, rfl, by rw [named]; decide +kernel, by rw [named]; decide +kernel,
    by rw [named]; exact found, dives, by show 6 ≤ 1000000; omega⟩

/-- With five levels, the code is executed five times, and the call on the sixth one
fails. -/
theorem recursion_overflows_five : ∃ site,
    divingMachine.Recursive site divingCode ⟨7, .pushArgList, 0x43, 0⟩ ⟨9, .extCall, 0x57, 0⟩ ∧
    let e := perform (Host.call "Dive" #[]) divingMachine
    let watched := perform (Host.call "Dive" #[]) (divingMachine.watched (some .record) [] [])
    e.1 = .error (.callStackOverflow "dive" 5) ∧ e.2.frames = [] ∧ e.2.stopped = false ∧
      watched.2.recorded.reverse = (List.replicate 5 (divingCode ++ divingCall)).flatten := by
  obtain ⟨site, named, recursive⟩ := divingMachine_recursive
  obtain ⟨ended, frames, running, -, -, executed⟩ := recursion_overflows recursive
    (show Text.sameName "Dive" site.name = true by rw [named]; decide +kernel) rfl #[]
  rw [named] at ended
  exact ⟨site, recursive, ended, frames, running, executed⟩

end Lingo
