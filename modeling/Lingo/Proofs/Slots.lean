import Lingo.Proofs.LocalCall
import Lingo.Proofs.Operands
import Lingo.Proofs.Steady

/-!
# Variable slots

What the four instructions on parameters and locals do to the running handler's
frame (`Instruction.Accesses`). Their arguments are slots that are multiplied by
the scale of a library. If the product fits, a machine whose running handler is of
that library gets the slot back (`slot?_scaled`), whatever the other frames are of.

* `execute_reads`, `execute_assigns`: what is read, and what an assignment changes;
* `accesses_of_scaled`: all four instructions.
-/

namespace Lingo

open Machine
open Host (perform)

/-! ## Variables of a frame -/

/-- The variables of a frame that have slots. -/
inductive Bank where
  | params
  | locals
  deriving DecidableEq

/-- The variables that an operation reads or assigns to by slot. -/
def Opcode.bank? : Opcode → Option Bank
  | .getParam | .setParam => some .params
  | .getLocal | .setLocal => some .locals
  | _ => none

/-- Whether an operation assigns to a slot. -/
def Opcode.assigns : Opcode → Bool
  | .setParam | .setLocal => true
  | _ => false

namespace Frame

/-- The value in a slot; below the first one there is void. -/
def slotAt (f : Frame) (bank : Bank) (n : Int) : Value :=
  if n < 0 then .void
  else
    match bank with
    | .params => f.paramAt n.toNat
    | .locals => f.localAt n.toNat

/-- What an assignment to a slot makes of a frame: the value is taken off the stack
and is in the slot, and all other slots are as they were. Below the first slot the
value is dropped. -/
structure Assigned (f : Frame) (bank : Bank) (n : Int) (f' : Frame) : Prop where
  kept : f' = { f.pop.2 with params := f'.params, locals := f'.locals }
  slots : ∀ b k, f'.slotAt b k = if b = bank ∧ k = n ∧ 0 ≤ n then f.pop.1 else f.slotAt b k
  dropped : n < 0 → f' = f.pop.2

section

variable (f : Frame)

theorem slotAt_below (bank : Bank) {n : Int} (below : n < 0) : f.slotAt bank n = .void :=
  if_pos below

theorem slotAt_params (k : Nat) : f.slotAt .params k = f.paramAt k :=
  if_neg (by omega)

theorem slotAt_locals (k : Nat) : f.slotAt .locals k = f.localAt k :=
  if_neg (by omega)

theorem paramAt_setParam (i k : Nat) (v : Value) :
    (f.setParam i v).paramAt k = if k = i then v else f.paramAt k := by
  unfold paramAt setParam
  by_cases same : k = i
  · rw [if_pos same, same, List.lookup_cons_self]
  · have other : (k == i) = false := beq_false_of_ne same
    simp only [List.lookup_cons, other, Bindings.lookup_filter_ne, if_neg same]

theorem localAt_setLocal {i : Nat} (inside : i < maxLocals) (k : Nat) (v : Value) :
    (f.setLocal i v).localAt k = if k = i then v else f.localAt k := by
  unfold localAt setLocal
  rw [if_neg (Nat.not_le_of_lt inside)]
  simp only [Array.getElem?_setIfInBounds, Array.size_append, Array.size_replicate]
  by_cases same : k = i
  · subst same
    rw [if_pos rfl, if_pos (by omega), if_pos rfl, Option.getD_some]
  · rw [if_neg (Ne.symm same), if_neg same, Array.getElem?_append]
    split
    · rfl
    · rw [Array.getElem?_replicate, Array.getElem?_eq_none (by omega)]
      split <;> rfl

theorem pop_slotAt (bank : Bank) (n : Int) :
    f.pop.2.slotAt bank n = f.slotAt bank n := by
  unfold pop
  split <;> rfl

/-- An assignment to a slot below the first one. -/
theorem assigned_below (bank : Bank) {n : Int} (below : n < 0) :
    f.Assigned bank n f.pop.2 where
  kept := rfl
  slots := by
    intro b k
    rw [if_neg (by omega), pop_slotAt]
  dropped := fun _ => rfl

/-- An assignment to a slot from the first one on. -/
theorem assigned_of {bank : Bank} {n : Nat} {f' : Frame}
    (kept : f' = { f.pop.2 with params := f'.params, locals := f'.locals })
    (slots : ∀ b (k : Nat),
      f'.slotAt b k = if b = bank ∧ k = n then f.pop.1 else f.pop.2.slotAt b k) :
    f.Assigned bank n f' where
  kept := kept
  slots := by
    intro b k
    rcases Int.lt_or_le k 0 with below | above
    · rw [if_neg (by omega), slotAt_below _ b below, slotAt_below _ b below]
    · obtain ⟨k, rfl⟩ := Int.eq_ofNat_of_zero_le above
      rw [slots, pop_slotAt]
      exact if_congr (and_congr_right fun _ => by omega) rfl rfl
  dropped := by omega

theorem assigned_param (n : Nat) : f.Assigned .params n (f.pop.2.setParam n f.pop.1) := by
  refine f.assigned_of rfl fun b k => ?_
  cases b with
  | params =>
    rw [slotAt_params, slotAt_params, paramAt_setParam]
    exact if_congr (and_iff_right rfl).symm rfl rfl
  | locals =>
    rw [if_neg fun same => Bank.noConfusion same.1]
    rfl

theorem assigned_local {n : Nat} (inside : n < maxLocals) :
    f.Assigned .locals n (f.pop.2.setLocal n f.pop.1) := by
  refine f.assigned_of ?_ fun b k => ?_
  · unfold setLocal
    split <;> rfl
  · cases b with
    | params =>
      rw [if_neg fun same => Bank.noConfusion same.1]
      unfold setLocal
      split <;> rfl
    | locals =>
      rw [slotAt_locals, slotAt_locals, localAt_setLocal _ inside]
      exact if_congr (and_iff_right rfl).symm rfl rfl

end

end Frame

/-! ## Scaled slots -/

/-- Whether a slot can be scaled without overflow. -/
def Slot.Fits (scale : Int32) (n : Int) : Prop :=
  Int32.minValue.toInt ≤ n * scale.toInt ∧ n * scale.toInt ≤ Int32.maxValue.toInt

instance (scale : Int32) (n : Int) : Decidable (Slot.Fits scale n) :=
  inferInstanceAs (Decidable (_ ∧ _))

theorem Slot.Fits.toInt {scale : Int32} {n : Int} (h : Fits scale n) :
    (Int32.ofInt n * scale).toInt = n * scale.toInt := by
  have bounds : Int32.minValue.toInt = -2147483648 ∧ Int32.maxValue.toInt = 2147483647 := by decide
  obtain ⟨low, high⟩ := h
  have product : Int32.ofInt n * scale = Int32.ofInt (n * scale.toInt) := by
    rw [Int32.ofInt_mul, Int32.ofInt_toInt]
  rw [product, Int32.toInt_ofInt_of_le (by omega) (by omega)]

/-! ## Instructions on slots -/

/-- An instruction reads or assigns to the variable in a slot of the running handler,
and does nothing else but to tell of it. -/
def Instruction.Accesses (i : Instruction) (bank : Bank) (n : Int) (m : Machine) : Prop :=
  ∀ (c : Calls) (top : Frame) (rest : List Frame), m.frames = top :: rest →
    if i.opcode.assigns then
      ∃ top' log events, top.Assigned bank n top' ∧
        perform (Step.execute c i) m = (.ok (), { m with frames := top' :: rest, log, events })
    else
      perform (Step.execute c i) m =
        (.ok (), { m with frames := top.push (top.slotAt bank n) :: rest })

theorem noteSet_apply (kind : VariableKind) (name : String) (v : Value) (m : Machine) :
    ∃ log events, noteSet kind name v m = ((), { m with log, events }) := by
  obtain ⟨log, events, told, -⟩ := notify_noted (fun memory => .set kind name (memory.image v))
    (fun memory => (memory.display? v).map (kind.name ++ " " ++ name ++ " = " ++ ·)) [] m
  exact ⟨log, events, congrArg (Prod.mk ()) told⟩

section

variable {m : Machine} {top : Frame} {rest : List Frame} {raw : Int32} {n : Int}
  (frames : m.frames = top.pop.2 :: rest)
  (slot : Step.slot? m raw = if n < 0 then none else some n.toNat)
include frames slot

theorem setParam_assigned :
    ∃ top' log events, top.Assigned .params n top' ∧ Step.setParam raw top.pop.1 m =
      ((), { m with frames := top' :: rest, log, events }) := by
  rw [Step.setParam, get_bind_apply, slot]
  rcases Int.lt_or_le n 0 with below | above
  · refine ⟨top.pop.2, ?log, m.events, top.assigned_below .params below, ?same⟩
    case same =>
      rw [if_pos below, ← frames]
      rfl
  · obtain ⟨k, rfl⟩ := Int.eq_ofNat_of_zero_le above
    rw [if_neg (by omega), Int.toNat_natCast]
    obtain ⟨log, events, told⟩ := noteSet_apply .param s!"param{k}" top.pop.1 m
    refine ⟨_, log, events, top.assigned_param k, ?_⟩
    dsimp only
    rw [update_bind_apply, told]
    exact congrArg (Prod.mk ()) (onTop_apply _ frames)

theorem setLocal_assigned (inside : n < maxLocals) :
    ∃ top' log events, top.Assigned .locals n top' ∧ Step.setLocal raw top.pop.1 m =
      ((), { m with frames := top' :: rest, log, events }) := by
  rw [Step.setLocal, get_bind_apply, slot]
  rcases Int.lt_or_le n 0 with below | above
  · refine ⟨top.pop.2, ?log, m.events, top.assigned_below .locals below, ?same⟩
    case same =>
      rw [if_pos below, ← frames]
      rfl
  · obtain ⟨k, rfl⟩ := Int.eq_ofNat_of_zero_le above
    rw [if_neg (by omega), Int.toNat_natCast]
    obtain ⟨log, events, told⟩ := noteSet_apply .localVar (Step.localName m k) top.pop.1 m
    refine ⟨_, log, events, top.assigned_local (Int.ofNat_lt.mp inside), ?_⟩
    dsimp only
    rw [get_bind_apply, update_bind_apply, told]
    exact congrArg (Prod.mk ()) (onTop_apply _ frames)

end

section

variable {m : Machine} {top : Frame} {rest : List Frame} (frames : m.frames = top :: rest)
include frames

/-- The running handler's library gives the slot back that it scaled. -/
theorem slot?_scaled {raw : Int32} {n : Int}
    (scaled : raw.toInt = n * top.library.slotScale.toInt) :
    Step.slot? m raw = if n < 0 then none else some n.toNat := by
  have positive := slotScale_pos top.library
  have scale : m.slotScale = top.library.slotScale := by rw [slotScale, frames]
  rw [Step.slot?, scale, scaled]
  rcases Int.lt_or_le n 0 with below | above
  · rw [if_pos below, if_pos (Int.mul_neg_of_neg_of_pos below positive)]
  · have product := Int.mul_nonneg above (Int.le_of_lt positive)
    rw [if_neg (Int.not_lt.mpr above), if_neg (Int.not_lt.mpr product),
      Int.toNat_mul above (Int.le_of_lt positive), Nat.mul_div_cancel _ (by omega)]

/-- The operations that read a slot push what is in it. -/
theorem execute_reads (c : Calls) {i : Instruction} {bank : Bank} {n : Int}
    (hb : i.opcode.bank? = some bank) (reads : i.opcode.assigns = false)
    (scaled : i.argument.toInt = n * top.library.slotScale.toInt) :
    perform (Step.execute c i) m =
      (.ok (), { m with frames := top.push (top.slotAt bank n) :: rest }) := by
  have slot := slot?_scaled frames scaled
  have top? : m.top? = some top := by rw [Machine.top?, frames]; rfl
  have param : Step.paramAt m i.argument = top.slotAt .params n := by
    rw [Step.paramAt, slot, top?, Frame.slotAt]
    rcases Int.lt_or_le n 0 with below | above
    · rw [if_pos below, if_pos below]
    · rw [if_neg (Int.not_lt.mpr above), if_neg (Int.not_lt.mpr above)]
  have localVar : Step.localAt m i.argument = top.slotAt .locals n := by
    rw [Step.localAt, slot, top?, Frame.slotAt]
    rcases Int.lt_or_le n 0 with below | above
    · rw [if_pos below, if_pos below]
    · rw [if_neg (Int.not_lt.mpr above), if_neg (Int.not_lt.mpr above)]
  rw [← onTop_apply (·.push (top.slotAt bank n)) frames]
  rcases i with ⟨offset, op, raw, argument⟩
  cases op with
  | getParam =>
    cases hb
    rw [← param]
    rfl
  | getLocal =>
    cases hb
    rw [← localVar]
    rfl
  | setParam | setLocal => cases reads
  | _ => cases hb

/-- The operations that assign to a slot take the value off the stack. -/
theorem execute_assigns (c : Calls) {i : Instruction} {bank : Bank} {n : Int}
    (hb : i.opcode.bank? = some bank) (assigns : i.opcode.assigns = true)
    (scaled : i.argument.toInt = n * top.library.slotScale.toInt)
    (inside : bank = .locals → n < maxLocals) :
    ∃ top' log events, top.Assigned bank n top' ∧
      perform (Step.execute c i) m = (.ok (), { m with frames := top' :: rest, log, events }) := by
  have popped := pop_apply frames
  have slot : Step.slot? { m with frames := top.pop.2 :: rest } i.argument =
      if n < 0 then none else some n.toNat :=
    slot?_scaled rfl (by rw [Frame.library, top.pop_site]; exact scaled)
  rcases i with ⟨offset, op, raw, argument⟩
  cases op with
  | setParam =>
    cases hb
    have step : perform (Step.execute c ⟨offset, .setParam, raw, argument⟩) m =
      (.ok (), (Step.setParam argument (Machine.pop m).1 (Machine.pop m).2).2) := rfl
    obtain ⟨top', log, events, assigned, set⟩ := setParam_assigned rfl slot
    rw [popped, set] at step
    exact ⟨top', log, events, assigned, step⟩
  | setLocal =>
    cases hb
    have step : perform (Step.execute c ⟨offset, .setLocal, raw, argument⟩) m =
      (.ok (), (Step.setLocal argument (Machine.pop m).1 (Machine.pop m).2).2) := rfl
    obtain ⟨top', log, events, assigned, set⟩ := setLocal_assigned rfl slot (inside rfl)
    rw [popped, set] at step
    exact ⟨top', log, events, assigned, step⟩
  | getParam | getLocal => cases assigns
  | _ => cases hb

end

/-- The argument of an instruction on slots addresses the slot that it was scaled
from, in every machine whose running handler has the scale. -/
theorem accesses_of_scaled {i : Instruction} {bank : Bank} {n : Int} {scale : Int32}
    (hb : i.opcode.bank? = some bank) (scaled : i.argument = Int32.ofInt n * scale)
    (fits : Slot.Fits scale n) (inside : i.opcode = .setLocal → n < maxLocals) {m : Machine}
    (running : ∀ top, m.top? = some top → top.library.slotScale = scale) :
    i.Accesses bank n m := by
  intro c top rest frames
  have exact : i.argument.toInt = n * top.library.slotScale.toInt := by
    rw [scaled, fits.toInt, running top (by rw [Machine.top?, frames]; rfl)]
  cases assigns : i.opcode.assigns with
  | false =>
    rw [if_neg Bool.false_ne_true]
    exact execute_reads frames c hb assigns exact
  | true =>
    rw [if_pos rfl]
    refine execute_assigns frames c hb assigns exact fun isLocal => inside ?_
    rw [isLocal] at hb
    revert hb assigns
    cases i.opcode <;> simp [Opcode.bank?, Opcode.assigns]

end Lingo
