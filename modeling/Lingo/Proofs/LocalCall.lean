import Lingo.Proofs.Callee
import Lingo.Proofs.Landing

/-!
# Calls by position

In a script whose handlers have their indices as positions, a local call runs the
handler whose index is the operand. The search for the position stops there, since
an index of 32 bits is no other's position (`localHandler?_position`); taking the
arguments from the stack leaves the script and the receiver of the caller as they
are (`execute_localCall`).
-/

namespace Lingo

open Host (perform)

theorem ofNat_inj {j k : Nat} (hj : j < 4294967296) (hk : k < 4294967296)
    (same : Int32.ofNat j = Int32.ofNat k) : j = k := by
  have values := congrArg Int32.toInt same
  rw [Int32.toInt_ofNat', Int32.toInt_ofNat', Int.bmod_def, Int.bmod_def] at values
  simp only [Int32.size] at values
  omega

theorem Frame.pop_site (f : Frame) : f.pop.2.site = f.site := by
  unfold Frame.pop
  split <;> rfl

theorem Frame.pop_receiver (f : Frame) : f.pop.2.receiver = f.receiver := by
  unfold Frame.pop
  split <;> rfl

theorem popArguments_apply {m : Machine} {top : Frame} {rest : List Frame}
    (frames : m.frames = top :: rest) :
    (Step.popArguments m).2 = { m with frames := top.pop.2 :: rest } := by
  rw [Step.popArguments, update_bind_apply, pop_apply frames, get_bind_apply]
  dsimp only
  generalize top.pop.1 = v
  cases v <;> rfl

theorem perform_callWith (callee : Array Value → Action Value) (m : Machine) :
    perform (Step.callWith callee) m =
      perform (callee (Step.popArguments m).1.1 >>= fun result =>
        sure (Step.pushResult result (Step.popArguments m).1.2)) (Step.popArguments m).2 := rfl

section

variable {s : Script} {k : Nat} (hk : k < s.handlers.size) (small : k < 4294967296)
  (positions : ∀ j (hj : j < s.handlers.size), s.handlers[j].vectorPos = Int32.ofNat j)
  {m : Machine} {top : Frame} (frame : m.top? = some top) (script : top.script = s)
include small positions frame script

theorem localHandler?_position :
    Step.localHandler? m (Int32.ofNat k) = some ⟨top.library, s, k, hk⟩ := by
  have found : s.handlers.findIdx? (·.vectorPos == Int32.ofNat k) = some k := by
    refine Array.findIdx?_eq_some_iff_getElem.mpr ⟨hk, ?_, fun j hj same => ?_⟩
    · rw [positions k hk]
      exact beq_self_eq_true _
    · rw [positions j (Nat.lt_trans hj hk)] at same
      exact absurd (ofNat_inj (Nat.lt_trans hj small) small (beq_iff_eq.mp same)) (Nat.ne_of_lt hj)
  rw [Step.localHandler?, frame]
  simp only [Option.bind_eq_bind, Option.bind_some, script, found, HandlerSite.at?, dif_pos hk]

theorem runLocal_position (c : Calls) (args : Array Value) :
    perform (Step.runLocal c (Int32.ofNat k) args) m =
      perform (c.activate ⟨top.library, s, k, hk⟩ args m.receiver) m := by
  rw [Step.runLocal, perform_get_bind, localHandler?_position hk small positions frame script]

/-- A local call runs the handler whose position is its operand, and keeps the
receiver. -/
theorem execute_localCall (c : Calls) {i : Instruction} (call : i.opcode = .localCall)
    (position : i.argument = Int32.ofNat k) :
    perform (Step.execute c i) m =
      perform (Step.callWith fun args => c.activate ⟨top.library, s, k, hk⟩ args m.receiver) m := by
  obtain ⟨rest, frames⟩ := List.head?_eq_some_iff.mp frame
  have callee : Step.callee c i = Step.runLocal c (Int32.ofNat k) := by
    funext args
    rw [Step.callee, call, position]
  -- the frame that the arguments are taken from stays that of the caller
  have taken := popArguments_apply frames
  have receiver : (Step.popArguments m).2.receiver = m.receiver := by
    rw [taken, Machine.receiver, Machine.receiver, frames]
    exact top.pop_receiver
  have library : top.pop.2.library = top.library := congrArg HandlerSite.library top.pop_site
  have script' : top.pop.2.script = s := (congrArg HandlerSite.script top.pop_site).trans script
  have run := @runLocal_position s k hk small positions (Step.popArguments m).2 top.pop.2
    (by rw [taken]; rfl) script' c
  rw [library, receiver] at run
  rw [Step.execute_call (by rw [call]; rfl), callee, perform_callWith, perform_callWith,
    perform_bind, perform_bind, run]

end

end Lingo
