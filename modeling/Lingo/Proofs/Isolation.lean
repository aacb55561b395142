import Lingo.Proofs.Callee
import Lingo.Proofs.Sound

/-!
# Callers

What a call instruction does to the frame of its handler, whatever it calls:
`Isolated` lists it. The argument list is taken from the operand stack, at most
one result is pushed, and a result of the handler itself is set only by the
builtin function `return`; every other part of the frame, and all frames below
it, stay as they are.

`execute_call_isolated` says so of call instructions that are given sound
activations. That activations are sound is proved with its help, in
`Lingo.Proofs.Activation`.
-/

namespace Lingo

open Machine
open Host (perform)

/-- Whether a call with this argument list pushes its result. -/
def Value.wantsResult : Value → Bool
  | .argListNoRet _ => false
  | _ => true

/-- The call instruction `i` of a handler with the frame `f` above `rest` ends
with `e`, and the handler's frame is `f'` then. -/
structure Isolated (m : Machine) (i : Instruction) (f : Frame) (rest : List Frame)
    (e : Except Fault Unit × Machine) (f' : Frame) : Prop where
  frames : e.2.frames = f' :: rest
  errorHandlers : e.2.errorHandlers = m.errorHandlers
  /-- The caller's operand stack and result may differ, and nothing else. -/
  kept : f' = { f with stack := f'.stack, returned := f'.returned, result := f'.result }
  /-- A result is pushed in place of the argument list if there is one and it is
  used. -/
  stack : ∃ pushed, f'.stack = pushed ++ f.stack.tail ∧
    pushed.length = if e.1.isOk && (f.peek 0).wantsResult then 1 else 0
  /-- The caller's result differs only if the call comes to `return`, -/
  untouched : Step.calledBuiltin? m i (m.memory.arguments (f.peek 0)) ≠ some .ret →
    f'.returned = f.returned ∧ f'.result = f.result
  /-- and then the caller has returned. -/
  finished : Step.calledBuiltin? m i (m.memory.arguments (f.peek 0)) = some .ret →
    f'.returned = true ∧ e.2.stopped = m.stopped

namespace Step

variable {m : Machine} {f : Frame} {rest : List Frame}

/-! ## Arguments and results -/

/-- The machine after a call has taken its argument list. -/
def afterPop (m : Machine) (f : Frame) (rest : List Frame) : Machine :=
  { m with frames := { f with stack := f.stack.tail } :: rest }

theorem pop_eq (f : Frame) : f.pop = (f.peek 0, { f with stack := f.stack.tail }) := by
  obtain ⟨_, _, _, _, _, stack, _, _, _, _, _⟩ := f
  cases stack <;> rfl

theorem popArguments_eq (hm : m.frames = f :: rest) :
    popArguments m =
      ((m.memory.arguments (f.peek 0), (f.peek 0).wantsResult), afterPop m f rest) := by
  have hp : Machine.pop m = (f.peek 0, afterPop m f rest) := by
    unfold Machine.pop
    rw [modifyGet_apply, hm]
    dsimp only
    rw [pop_eq]
    rfl
  rw [popArguments, update_bind_apply, hp, get_bind_apply]
  cases f.peek 0 <;> rfl

theorem pushResult_eq {g : Frame} (hm : m.frames = g :: rest) (v : Value) (used : Bool) :
    (pushResult v used m).2 =
      { m with frames := { g with stack := (if used then [v] else []) ++ g.stack } :: rest } := by
  cases used with
  | false => exact congrArg (fun frames => { m with frames }) hm
  | true =>
    show m.onTop (·.push v) = _
    unfold Machine.onTop
    rw [hm]
    rfl

theorem callWith_ok {callee : Array Value → Action Value} (hm : m.frames = f :: rest) {v : Value}
    {m₁ : Machine} (h : perform (callee (m.memory.arguments (f.peek 0))) (afterPop m f rest) =
      (.ok v, m₁)) :
    perform (callWith callee) m = (.ok (), (pushResult v (f.peek 0).wantsResult m₁).2) := by
  have hp := perform_sure popArguments m
  rw [popArguments_eq hm] at hp
  exact (perform_bind_ok hp _).trans (perform_bind_ok h _)

theorem callWith_error {callee : Array Value → Action Value} (hm : m.frames = f :: rest)
    {fault : Fault} {m₁ : Machine}
    (h : perform (callee (m.memory.arguments (f.peek 0))) (afterPop m f rest) =
      (.error fault, m₁)) :
    perform (callWith callee) m = (.error fault, m₁) := by
  have hp := perform_sure popArguments m
  rw [popArguments_eq hm] at hp
  exact (perform_bind_ok hp _).trans (perform_bind_error h _)

/-- Taking the arguments does not change what is called. -/
theorem calledBuiltin?_afterPop (hm : m.frames = f :: rest) (i : Instruction)
    (args : Array Value) : calledBuiltin? (afterPop m f rest) i args = calledBuiltin? m i args := by
  have hn : (afterPop m f rest).name i.argument = m.name i.argument := by
    simp only [Machine.name, hm]
    rfl
  have ht : toldTarget? (afterPop m f rest) = toldTarget? m := by
    simp only [toldTarget?, Machine.top?, hm]
    rfl
  unfold calledBuiltin?
  rw [hn, ht]
  rfl

/-! ## Call instructions -/

/-- Whatever a call instruction runs, its caller and the frames below are
safe. -/
theorem execute_call_isolated {c : Calls} (hc : SoundCalls c) {i : Instruction}
    (hi : i.opcode.isCall = true) (hosts : m.hosts = []) (hm : m.frames = f :: rest) :
    ∃ f', Isolated m i f rest (perform (execute c i) m) f' := by
  rw [execute_call hi]
  let args := m.memory.arguments (f.peek 0)
  have hb := calledBuiltin?_afterPop hm i args
  by_cases hr : calledBuiltin? m i args = some .ret
  · -- `return` answers at once and changes the caller's frame itself.
    obtain ⟨v, hv⟩ := callee_ret (m := afterPop m f rest) hosts (hb.trans hr)
    rw [callWith_ok hm (hv c), pushResult_eq rfl]
    refine ⟨_, rfl, rfl, rfl, ⟨_, rfl, ?_⟩, fun h => absurd hr h, fun _ => ⟨rfl, rfl⟩⟩
    cases (f.peek 0).wantsResult <;> rfl
  · obtain ⟨a, ha, he⟩ := callee_untouching (m := afterPop m f rest) (fun h => hr (hb.symm.trans h))
    have hs := (ha.sound hc (afterPop m f rest) hosts).steady
    have same := hs.frames id
    rw [← he c] at hs same
    rcases hp : perform (callee c i args) (afterPop m f rest) with ⟨fault | v, m₁⟩
    · rw [callWith_error hm hp]
      rw [hp] at hs same
      exact ⟨_, same, hs.errorHandlers, rfl, ⟨[], rfl, rfl⟩, fun _ => ⟨rfl, rfl⟩,
        fun h => absurd h hr⟩
    · rw [callWith_ok hm hp]
      rw [hp] at hs same
      rw [pushResult_eq same]
      refine ⟨_, rfl, hs.errorHandlers, rfl, ⟨_, rfl, ?_⟩, fun _ => ⟨rfl, rfl⟩,
        fun h => absurd h hr⟩
      cases (f.peek 0).wantsResult <;> rfl

end Step

end Lingo
