import Lingo.Proofs.Landing

/-!
# Operand stacks

`Machine.withStack` is a machine whose running handler has other operands. What an
instruction does with its operands is said of such machines: `pop_withStack` and
`push_withStack` go through the operands, and all else is as it is in the machine
itself.
-/

namespace Lingo.Machine

/-- The machine with other operands on the stack of the running handler. -/
def withStack (m : Machine) (stack : List Value) : Machine :=
  { m with frames := m.frames.modifyHead ({ · with stack }) }

section

variable {m : Machine} (running : m.frames ≠ [])

theorem withStack_of_frames {top : Frame} {outer : List Frame} (frames : m.frames = top :: outer)
    (stack : List Value) :
    m.withStack stack = { m with frames := { top with stack } :: outer } := by
  rw [withStack, frames, List.modifyHead_cons]

@[simp] theorem memory_withStack (m : Machine) (stack : List Value) :
    (m.withStack stack).memory = m.memory := rfl

@[simp] theorem name_withStack (m : Machine) (stack : List Value) (id : Int32) :
    (m.withStack stack).name id = m.name id := by
  unfold withStack name
  cases m.frames <;> rfl

include running

theorem pop_withStack (v : Value) (stack : List Value) :
    pop (m.withStack (v :: stack)) = (v, m.withStack stack) := by
  obtain ⟨top, outer, frames⟩ := List.exists_cons_of_ne_nil running
  rw [withStack_of_frames frames, withStack_of_frames frames]
  rfl

theorem push_withStack (v : Value) (stack : List Value) :
    push v (m.withStack stack) = ((), m.withStack (v :: stack)) := by
  obtain ⟨top, outer, frames⟩ := List.exists_cons_of_ne_nil running
  rw [withStack_of_frames frames, withStack_of_frames frames]
  rfl

theorem withStack_running (stack : List Value) : (m.withStack stack).frames ≠ [] := by
  obtain ⟨top, outer, frames⟩ := List.exists_cons_of_ne_nil running
  rw [withStack_of_frames frames]
  exact List.cons_ne_nil _ _

/-- The topmost operand is taken and the rest is done without it. -/
theorem pop_bind_withStack {α : Type} (f : Value → Update α) (v : Value) (stack : List Value) :
    (pop >>= f) (m.withStack (v :: stack)) = f v (m.withStack stack) := by
  rw [update_bind_apply, pop_withStack running]

end

end Lingo.Machine
