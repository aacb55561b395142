import Lingo.Proofs.Inspection

/-!
# Orderly frames

Jumps lead anywhere in a handler, out of loops, into the middle of others and to
the end of the code, and the slots of local variables are whatever the code says.
Still no frame gets out of order (`Frame.Orderly`): its cursor stays in the code
or at its end, the loops that it notes start one behind the other, and there are
no more local variables than were declared or can be addressed.

* `Frame.Orderly.goto`, `repeatFrom`, `setLocal`: jumps, repeats and assignments
  keep frames in order, and so does each edit (`Frame.Edit.orderly`);
* `Frame.Orderly.length_loops_le`: however often its loops repeat, an orderly frame
  notes each place in the code at most once;
* `frames_stay_orderly`: an interpreter that looks for a frame that is not in order
  finds none.
-/

namespace Lingo

open Machine
open Host (perform)

namespace Frame

variable {f f' : Frame}

/-- The cursor and the heads of the loops are places in the code or its end, and the
local variables are some that were declared or can be addressed. -/
structure Orderly (f : Frame) : Prop where
  cursor_le : f.cursor ≤ f.handler.code.size
  /-- Inner loops start behind outer ones. -/
  nested : f.loops.Pairwise (· > ·)
  heads_le : ∀ head ∈ f.loops, head ≤ f.handler.code.size
  locals_le : f.locals.size ≤ max f.handler.localCount maxLocals

instance (f : Frame) : Decidable f.Orderly :=
  decidable_of_iff
    (f.cursor ≤ f.handler.code.size ∧ f.loops.Pairwise (· > ·) ∧
      (∀ head ∈ f.loops, head ≤ f.handler.code.size) ∧
      f.locals.size ≤ max f.handler.localCount maxLocals)
    ⟨fun h => ⟨h.1, h.2.1, h.2.2.1, h.2.2.2⟩,
      fun h => ⟨h.cursor_le, h.nested, h.heads_le, h.locals_le⟩⟩

/-! ## Places in the code -/

/-- Jumps lead to an instruction or to the end of the code. -/
theorem indexAt?_le {target : Int} {index : Nat} (h : f.indexAt? target = some index) :
    index ≤ f.handler.code.size := by
  unfold indexAt? at h
  split at h
  · cases h
  split at h
  · exact (Option.some.inj h).ge
  · obtain ⟨inside, -⟩ := Array.findIdx?_eq_some_iff_getElem.mp h
    exact inside.le

theorem cursor_lt_of_current? {i : Instruction} (h : f.current? = some i) :
    f.cursor < f.handler.code.size :=
  (Array.getElem?_eq_some_iff.mp h).1

/-! ## What keeps a frame in order -/

theorem orderly_enter (site : HandlerSite) (args : Array Value) (receiver : Value) :
    (Frame.enter site args receiver).Orderly where
  cursor_le := Nat.zero_le _
  nested := .nil
  heads_le := by simp [Frame.enter]
  locals_le := by simp [Frame.enter, Frame.handler]

namespace Orderly

theorem of_same (h : f.Orderly) (site : f'.site = f.site) (cursor : f'.cursor = f.cursor)
    (loops : f'.loops = f.loops) (locals : f'.locals = f.locals) : f'.Orderly := by
  have handler : f'.handler = f.handler := congrArg HandlerSite.handler site
  refine ⟨?_, ?_, ?_, ?_⟩
  · rw [cursor, handler]
    exact h.cursor_le
  · rw [loops]
    exact h.nested
  · rw [loops, handler]
    exact h.heads_le
  · rw [locals, handler]
    exact h.locals_le

theorem pop (h : f.Orderly) : f.pop.2.Orderly := by
  unfold Frame.pop
  split
  · exact h
  · exact h.of_same rfl rfl rfl rfl

theorem swap (h : f.Orderly) : f.swap.Orderly := by
  unfold Frame.swap
  split
  · exact h.of_same rfl rfl rfl rfl
  · exact h

theorem advance (h : f.Orderly) {i : Instruction} (next : f.current? = some i) :
    f.advance.Orderly :=
  ⟨cursor_lt_of_current? next, h.nested, h.heads_le, h.locals_le⟩

theorem goto (h : f.Orderly) {index : Nat} (inside : index ≤ f.handler.code.size) :
    (f.goto index).Orderly :=
  ⟨inside, h.nested, h.heads_le, h.locals_le⟩

/-- Unless a repeat goes back to the head of a loop that it leaves, all loops that it
leaves start before. -/
theorem outer_lt (h : f.Orderly) {index : Nat}
    (other : (f.loops.dropWhile (index < ·)).head? ≠ some index) :
    ∀ head ∈ f.loops.dropWhile (index < ·), head < index := by
  have nested := h.nested.sublist (List.dropWhile_sublist (index < ·))
  have stopped := List.head?_dropWhile_not (index < ·) f.loops
  cases split : f.loops.dropWhile (index < ·) with
  | nil => simp
  | cons innermost outer =>
    rw [split] at nested stopped other
    have first : innermost < index := by
      simp only [List.head?_cons, ne_eq, Option.some.injEq, decide_eq_false_iff_not] at stopped other
      omega
    -- The loops behind the innermost one start before it.
    intro head member
    rcases List.mem_cons.mp member with rfl | member
    · exact first
    · exact (List.rel_of_pairwise_cons nested member).trans first

theorem repeatFrom (h : f.Orderly) {index : Nat} (inside : index ≤ f.handler.code.size) :
    (f.repeatFrom index).Orderly := by
  have sublist := List.dropWhile_sublist (l := f.loops) (index < ·)
  have nested := h.nested.sublist sublist
  have heads : ∀ head ∈ f.loops.dropWhile (index < ·), head ≤ f.handler.code.size :=
    fun head member => h.heads_le head (sublist.subset member)
  unfold Frame.repeatFrom
  dsimp only
  split
  · exact ⟨inside, nested, heads, h.locals_le⟩
  · rename_i other
    have before := h.outer_lt fun same => other (beq_iff_eq.mpr same)
    exact ⟨inside, List.pairwise_cons.mpr ⟨before, nested⟩,
      List.forall_mem_cons.mpr ⟨inside, heads⟩, h.locals_le⟩

theorem setLocal (h : f.Orderly) (i : Nat) (v : Value) : (f.setLocal i v).Orderly := by
  unfold Frame.setLocal
  split
  · exact h
  · rename_i inside
    refine ⟨h.cursor_le, h.nested, h.heads_le, ?_⟩
    have declared := h.locals_le
    simp only [Array.size_setIfInBounds, Array.size_append, Array.size_replicate]
    change _ ≤ max f.handler.localCount maxLocals
    omega

/-- Loops that start one behind the other start at different places, and a code has
one place more than instructions. -/
theorem length_loops_le (h : f.Orderly) : f.loops.length ≤ f.handler.code.size + 1 := by
  have distinct : f.loops.Nodup := h.nested.imp Nat.ne_of_gt
  have places : f.loops ⊆ List.range (f.handler.code.size + 1) := fun head member =>
    List.mem_range.mpr (Nat.lt_succ_of_le (h.heads_le head member))
  simpa using (List.subperm_of_subset distinct places).length_le

end Orderly

theorem Edit.orderly (edit : f.Edit f') (h : f.Orderly) : f'.Orderly := by
  cases edit with
  | push | popMany | discard | setParam | finish | pushTell | popTell =>
    exact h.of_same rfl rfl rfl rfl
  | pop => exact h.pop
  | swap => exact h.swap
  | goto leads => exact h.goto (indexAt?_le leads)
  | repeatFrom leads => exact h.repeatFrom (indexAt?_le leads)
  | setLocal i v => exact h.setLocal i v

theorem orderly_invariant : Frame.Invariant Orderly where
  enter := orderly_enter
  advance next h := h.advance next
  edit change h := change.orderly h
  takeResult h := h.of_same rfl rfl rfl rfl

end Frame

/-! ## Every machine that a host has -/

/-- All frames of the machine are in order. -/
def Machine.Orderly (m : Machine) : Prop :=
  ∀ f ∈ m.frames, f.Orderly

instance : DecidablePred Machine.Orderly :=
  fun m => inferInstanceAs (Decidable (∀ f ∈ m.frames, f.Orderly))

/-- Whatever visits the host pays to a machine in which nothing is running, and
whatever it has the machine run then, no frame gets out of order: an interpreter
that looks at all frames whenever it calls a handler, around each instruction and
before a handler is left, and does something `other` where one is not in order,
does what the interpreter does. Nor does a frame in order note more loops than
there are places in its code. -/
theorem frames_stay_orderly (other : Action Unit) (visits : List Visit) (entry : Entry)
    {m : Machine} (start : m.frames = []) :
    let now := afterVisits visits m
    now.Orderly ∧
      perform (entry.body (now.inspectedCalls (inspect Machine.Orderly other))) now =
        perform entry.action now ∧
      ∀ f : Frame, f.Orderly → f.loops.length ≤ f.handler.code.size + 1 := by
  intro now
  have none : m.Orderly := by
    rw [Machine.Orderly, start]
    simp
  have orderly : now.Orderly := Frame.orderly_invariant.afterVisits visits none
  have quiet : ∀ m : Machine, m.Orderly →
      perform (inspect Machine.Orderly other) m = (.ok (), m) := fun m h => perform_inspect h other
  exact ⟨orderly, (Frame.orderly_invariant.inspected quiet entry orderly).1,
    fun f h => h.length_loops_le⟩

/-- A movie whose handler repeats a loop within a loop, and assigns to a local
variable that it does not declare. -/
def loopMovie : Library where
  names := ⟨#["spin"]⟩
  scripts := #[{
    member := 1
    kind := .movie
    handlers := #[{
      nameId := 0
      code := #[⟨0, .pushZero, 0x03, 0⟩, ⟨1, .pushZero, 0x03, 0⟩, ⟨2, .pushInt8, 0x41, 1⟩,
        ⟨4, .pushInt8, 0x41, 1⟩, ⟨6, .pushZero, 0x03, 0⟩,
        ⟨7, .pushZero, 0x03, 0⟩, ⟨8, .setLocal, 0x52, 40⟩,
        ⟨10, .jmpIfZ, 0x55, 4⟩, ⟨12, .endRepeat, 0x54, 2⟩,
        ⟨14, .jmpIfZ, 0x55, 4⟩, ⟨16, .endRepeat, 0x54, 9⟩] }] }]

def loopMachine : Machine where
  movie := some loopMovie

/-- Who looks for two loops at a time, or for six local variables, finds them. -/
theorem frames_stay_orderly_spin :
    let spin := Entry.call "spin" #[]
    let refuse : Action Unit := throw (.script "refused")
    let looking (P : Machine → Prop) [DecidablePred P] :=
      perform (spin.body (loopMachine.inspectedCalls (inspect P refuse))) loopMachine
    (looking fun m => ∀ f ∈ m.frames, f.loops.length < 2).1 = .error (.script "refused") ∧
      (looking fun m => ∀ f ∈ m.frames, f.locals.size < 6).1 = .error (.script "refused") ∧
      looking Machine.Orderly = perform spin.action loopMachine ∧
      (perform spin.action loopMachine).1 = .ok .void := by
  intro spin refuse looking
  have orderly := frames_stay_orderly refuse [] spin (m := loopMachine) rfl
  exact ⟨by decide +kernel, by decide +kernel, orderly.2.1, by decide +kernel⟩

end Lingo
