import Lingo.Proofs.Canonical
import Lingo.Proofs.Routine

/-!
# Labels are where jumps land

Three parts agree on what a jump means: the layout computes its distance in
bytes, the handler finds the instruction at an offset, and the interpreter goes
there.

* `indexAt?_start`: in code that is laid out, the offset at which an instruction
  starts leads back to that instruction, and the end of the code to its end;
* `laidOut_jump`: the argument of a jump leads to the start of its target;
* `execute_jump`: executing a jump that leads to an instruction goes to its
  index and does nothing else;
* `jumps_land`: so a jump to `@name` goes to the number of instructions before
  the line of the label `@name:`.
-/

namespace Lingo

open Machine
open Host (perform)

namespace Layout

/-! ## Offsets -/

theorem Sized.positive {items : List Item} {sizes : List Nat} (h : Sized items sizes) {i : Nat}
    (hi : i < sizes.length) : 0 < sizes[i] := by
  obtain ⟨width, -, size_eq⟩ := h.get (by rw [h.length_eq]; exact hi) hi
  simp only [List.get_eq_getElem] at size_eq
  omega

/-- Instructions start one behind the other. -/
theorem start_lt {items : List Item} {sizes : List Nat} (h : Sized items sizes) {i j : Nat}
    (hij : i < j) (hj : j ≤ sizes.length) : start sizes i < start sizes j := by
  have here : i < sizes.length := Nat.lt_of_lt_of_le hij hj
  have next := start_succ here
  have positive := h.positive here
  have rest : start sizes (i + 1) ≤ start sizes j := start_mono sizes hij
  omega

theorem start_length {items : List Item} :
    start (settledSizes items) items.length = (settledSizes items).sum := by
  rw [start, ← length_settledSizes, List.take_length]

theorem offset_laidOut {items : List Item} {i : Nat} (hi : i < (laidOut items).length) :
    (laidOut items)[i].offset = start (settledSizes items) i := by
  simp [laidOut, placed]

/-- The start of an instruction leads to that instruction, and the end of the
code to its end. -/
theorem indexAt?_start {items : List Item} {f : Frame}
    (code : f.handler.code = (laidOut items).toArray) {target : Nat}
    (ht : target ≤ items.length) :
    f.indexAt? (start (settledSizes items) target) = some target := by
  have sized := sized_settledSizes items
  have length := length_settledSizes items
  have total := byteLength_laidOut code
  have nonneg : ¬ ((start (settledSizes items) target : Int) < 0) := by omega
  rw [Frame.indexAt?, if_neg nonneg, Int.toNat_natCast, total, ← start_length]
  by_cases last : target = items.length
  · rw [last, if_pos (beq_self_eq_true _), code, List.size_toArray, length_laidOut]
  · have inside : target < (laidOut items).length := by
      rw [length_laidOut]
      omega
    have before := start_lt sized (i := target) (j := items.length) (by omega) (by omega)
    rw [if_neg (by rw [beq_iff_eq]; omega), Handler.indexAt?, code, List.findIdx?_toArray,
      List.findIdx?_eq_some_iff_getElem]
    refine ⟨inside, by rw [offset_laidOut, beq_self_eq_true], fun j hj => ?_⟩
    have earlier := start_lt sized hj (by omega)
    rw [offset_laidOut, beq_iff_eq]
    omega

/-! ## Distances -/

/-- The instruction of an item that jumps to another one. -/
theorem laidOut_jump {items : List Item} (short : (settledSizes items).sum < 2147483648)
    {i : Nat} {op : Opcode} {target : Nat} (hi : items[i]? = some (op, .index target)) :
    ∃ jump, (laidOut items)[i]? = some jump ∧ jump.opcode = op ∧
      (if op = .endRepeat then jump.offset - jump.argument.toInt
        else jump.offset + jump.argument.toInt) = start (settledSizes items) target := by
  obtain ⟨inside, here⟩ := List.getElem?_eq_some_iff.mp hi
  have hlaid : i < (laidOut items).length := by rwa [length_laidOut]
  have bound : ∀ k, start (settledSizes items) k < 2147483648 := fun k =>
    Nat.lt_of_le_of_lt (start_le_sum _ k) short
  have opcode : (laidOut items)[i].opcode = op := by simp [laidOut, placed, here]
  have argument : (laidOut items)[i].argument.toInt =
      if op = .endRepeat then (start (settledSizes items) i : Int) - start (settledSizes items) target
      else (start (settledSizes items) target : Int) - start (settledSizes items) i := by
    rw [← distance_toInt op (bound i) (bound target)]
    simp [laidOut, placed, here, Resolved.argument]
  refine ⟨_, List.getElem?_eq_getElem hlaid, opcode, ?_⟩
  rw [offset_laidOut, argument]
  split <;> omega

end Layout

/-! ## Jumps -/

/-- The operations that jump. -/
def Opcode.isJump : Opcode → Bool
  | .jmp | .jmpIfZ | .endRepeat => true
  | _ => false

/-- Whether a jump is taken in a frame: one on a condition only if the topmost
operand is false. -/
def Frame.jumps (f : Frame) (op : Opcode) : Bool :=
  match op with
  | .jmpIfZ => !f.pop.1.truthy
  | _ => true

/-- The frame after a jump that leads to an instruction. -/
def Frame.jumped (f : Frame) (op : Opcode) (target : Nat) : Frame :=
  match op with
  | .jmpIfZ => if f.pop.1.truthy then f.pop.2 else f.pop.2.goto target
  | .endRepeat => f.repeatFrom target
  | _ => f.goto target

/-- A jump that is taken goes to the instruction that it leads to. -/
theorem Frame.jumped_cursor {f : Frame} {op : Opcode} (h : f.jumps op = true) (target : Nat) :
    (f.jumped op target).cursor = target := by
  unfold Frame.jumped
  split
  · have falsy : f.pop.1.truthy = false := by simpa [Frame.jumps] using h
    rw [if_neg (by rw [falsy]; exact Bool.false_ne_true)]
    rfl
  · rfl
  · rfl

theorem Frame.pop_handler (f : Frame) : f.pop.2.handler = f.handler := by
  unfold Frame.pop
  split <;> rfl

theorem Frame.jumped_handler (f : Frame) (op : Opcode) (target : Nat) :
    (f.jumped op target).handler = f.handler := by
  unfold Frame.jumped
  split
  · split
    · exact f.pop_handler
    · exact f.pop_handler
  · rfl
  · rfl

theorem pop_apply {m : Machine} {top : Frame} {rest : List Frame} (frames : m.frames = top :: rest) :
    Machine.pop m = (top.pop.1, { m with frames := top.pop.2 :: rest }) := by
  rw [Machine.pop, modifyGet_apply, frames]

theorem onTop_apply {m : Machine} {top : Frame} {rest : List Frame} (f : Frame → Frame)
    (frames : m.frames = top :: rest) : m.onTop f = { m with frames := f top :: rest } := by
  rw [Machine.onTop, frames]

theorem jump_apply (i : Instruction) {m : Machine} {offset : Int} {target : Nat}
    (index : Step.jumpIndex? m offset = some target) :
    Step.jump i offset m = ((), m.onTop (·.goto target)) := by
  rw [Step.jump, get_bind_apply, index]
  rfl

theorem jumpIfFalse_apply (i : Instruction) {m : Machine} {top : Frame} {rest : List Frame}
    (frames : m.frames = top :: rest) {target : Nat}
    (index : Step.jumpIndex? { m with frames := top.pop.2 :: rest }
      (i.offset + i.argument.toInt) = some target) :
    Step.jumpIfFalse i m = ((), { m with frames := top.jumped .jmpIfZ target :: rest }) := by
  rw [Step.jumpIfFalse, update_bind_apply, pop_apply frames]
  simp only [Frame.jumped]
  split
  · rfl
  · rw [jump_apply i index, onTop_apply _ rfl]

theorem endRepeat_apply (i : Instruction) {m : Machine} {target : Nat}
    (index : Step.jumpIndex? m (i.offset - i.argument.toInt) = some target) :
    Step.endRepeat i m = ((), m.onTop (·.repeatFrom target)) := by
  rw [Step.endRepeat, get_bind_apply]
  simp only [index]
  rfl

/-- Where an instruction jumps to, if it does. -/
def Instruction.target (i : Instruction) : Int :=
  if i.opcode = .endRepeat then i.offset - i.argument.toInt else i.offset + i.argument.toInt

/-- Executing a jump that leads to an instruction changes the topmost frame
only: nothing is reported. -/
theorem execute_jump (c : Calls) {i : Instruction} (hop : i.opcode.isJump = true) {target : Nat}
    {m : Machine} {top : Frame} {rest : List Frame} (frames : m.frames = top :: rest)
    (lands : ∀ f : Frame, f.handler = top.handler → f.indexAt? i.target = some target) :
    perform (Step.execute c i) m =
      (.ok (), { m with frames := top.jumped i.opcode target :: rest }) := by
  have index : ∀ {m : Machine} {f : Frame}, m.frames = f :: rest → f.handler = top.handler →
      Step.jumpIndex? m i.target = some target := by
    intro m f hf same
    rw [Step.jumpIndex?, Machine.top?, hf]
    exact lands f same
  rcases i with ⟨offset, op, raw, argument⟩
  cases op with
  | jmp =>
    have here := jump_apply ⟨offset, .jmp, raw, argument⟩ (index frames rfl)
    rw [onTop_apply _ frames] at here
    exact congrArg (fun r => (Except.ok r.1, r.2)) here
  | jmpIfZ =>
    have here := jumpIfFalse_apply ⟨offset, .jmpIfZ, raw, argument⟩ frames
      (index rfl top.pop_handler)
    exact congrArg (fun r => (Except.ok r.1, r.2)) here
  | endRepeat =>
    have here := endRepeat_apply ⟨offset, .endRepeat, raw, argument⟩ (index frames rfl)
    rw [onTop_apply _ frames] at here
    exact congrArg (fun r => (Except.ok r.1, r.2)) here
  | _ => cases hop

/-! ## Labels -/

/-- Executing an instruction of a handler jumps to the instruction at `target`,
does so whenever the jump is taken, and does nothing else; a jump to the end of
the code ends the handler. -/
def Lands (h : Handler) (i : Instruction) (target : Nat) : Prop :=
  ∀ (c : Calls) (m : Machine) (top : Frame) (rest : List Frame),
    m.frames = top :: rest → top.handler = h →
    perform (Step.execute c i) m =
        (.ok (), { m with frames := top.jumped i.opcode target :: rest }) ∧
      (top.jumps i.opcode = true → (top.jumped i.opcode target).cursor = target ∧
        (target = h.code.size → (top.jumped i.opcode target).current? = none))

open Layout in
/-- An instruction that is laid out with a label lands on what stands behind the
label. -/
theorem lands_of_item {items : List Item} {h : Handler} (code : h.code = (laidOut items).toArray)
    (short : h.byteLength < 2147483648) {i : Nat} {op : Opcode} {target : Nat}
    (jump : op.isJump = true) (hi : items[i]? = some (op, .index target))
    (ht : target ≤ items.length) :
    ∃ instruction, h.code[i]? = some instruction ∧ instruction.opcode = op ∧
      Lands h instruction target := by
  rw [byteLength_laidOut code] at short
  obtain ⟨instruction, here, opcode, leads⟩ := laidOut_jump short hi
  have there : h.code[i]? = some instruction := by rw [code, List.getElem?_toArray, here]
  refine ⟨instruction, there, opcode, fun c m top rest frames handler => ⟨?_, fun taken => ?_⟩⟩
  · refine execute_jump c (by rw [opcode]; exact jump) frames fun f same => ?_
    rw [Instruction.target, opcode, leads]
    exact indexAt?_start (by rw [same, handler, code]) ht
  · have cursor := Frame.jumped_cursor taken target
    refine ⟨cursor, fun last => ?_⟩
    rw [Frame.current?, cursor, Frame.jumped_handler, handler, last]
    exact Array.getElem?_size

open Layout in
/-- For each handler of an assembled text that has less than 2³¹ bytes, and each
line of its body with a jump to `@name`: the label is defined, and executing the
jump goes to the number of instructions before the line with `@name:`. -/
theorem jumps_land {text : String} {lib : Library} (accepted : assemble text = .ok lib) :
    List.Forall₂
      (fun lines h => h.byteLength < 2147483648 →
        h.code.size = instructionCount lines ∧
        ∀ before line after word op name, lines = before ++ line :: after →
          statementOf line = [.word word, .label name] →
          Opcode.ofMnemonic? word = some op → op.isJump = true →
          (∃ above place below, lines = above ++ place :: below ∧ labelOf place = some name) ∧
          ∀ above place below, lines = above ++ place :: below → labelOf place = some name →
            ∃ i, h.code[instructionCount before]? = some i ∧ i.opcode = op ∧
              Lands h i (instructionCount above))
      (handlerBodies text) lib.handlers := by
  refine (assemble_spelled accepted).imp fun lines h ⟨body, labels, spells, hc⟩ short => ?_
  have code : h.code = (laidOut (items body labels)).toArray :=
    congrArg List.toArray (spells.code hc)
  have length : (items body labels).length = instructionCount lines := by
    rw [items, List.length_map, spells.size]
  have size : h.code.size = instructionCount lines := by
    rw [code, List.size_toArray, length_laidOut, length]
  refine ⟨size, fun before line after word op name split hs hop jump => ⟨?_, ?_⟩⟩
  · obtain ⟨n, here⟩ := spells.jump before line after word op name split hs hop
    have resolved := resolves_of_layout hc _ (List.mem_of_getElem? here) name rfl
    obtain ⟨target, found⟩ := Option.isSome_iff_exists.mp resolved
    exact spells.defined name target found
  · intro above place below split' hl
    obtain ⟨n, here⟩ := spells.jump before line after word op name split hs hop
    have found := spells.place above place below name split' hl
    refine lands_of_item code short jump ?_ ?_
    · rw [items, List.getElem?_map, here, Option.map_some, resolve, found, Option.getD_some]
    · rw [length, ← spells.size]
      exact spells.within name _ found

def loopLines : List (List Token) :=
  [[.labelDef "top", .word "JMP_IF_Z", .label "done"], [.word "PUSH_INT16", .int 300],
    [.word "POP", .int 1], [.word "END_REPEAT", .label "top"], [.labelDef "done", .word "end"]]

/-- The forward jump of the loop lands behind its last instruction, and the
backward one on its first. -/
theorem jumps_land_loop :
    Lands loopHandler ⟨0, .jmpIfZ, 0x55, 9⟩ 4 ∧ Lands loopHandler ⟨7, .endRepeat, 0x54, 7⟩ 0 := by
  have bodies : handlerBodies loopText = [loopLines] := by decide +kernel
  have all := jumps_land assemble_loopText
  rw [bodies] at all
  obtain ⟨here, -⟩ := List.forall₂_cons.mp all
  obtain ⟨-, lands⟩ := here (by decide)
  have jmpIfZ := ofMnemonic?_mnemonic .jmpIfZ nofun
  have endRepeat := ofMnemonic?_mnemonic .endRepeat nofun
  have counts : instructionCount (loopLines.take 3) = 3 ∧ instructionCount (loopLines.take 4) = 4 := by
    have pushInt16 := ofMnemonic?_mnemonic .pushInt16 nofun
    have pop := ofMnemonic?_mnemonic .pop nofun
    simp only [Opcode.mnemonic] at jmpIfZ endRepeat pushInt16 pop
    simp [instructionCount, loopLines, opcodeOf, statementOf, jmpIfZ, endRepeat, pushInt16, pop]
  constructor
  · obtain ⟨-, jump⟩ := lands [] _ _ _ .jmpIfZ "done" rfl rfl jmpIfZ rfl
    obtain ⟨i, hi, -, done⟩ := jump (loopLines.take 4) _ [] rfl rfl
    cases hi
    rwa [counts.2] at done
  · obtain ⟨-, jump⟩ := lands (loopLines.take 3) _ _ _ .endRepeat "top" rfl rfl endRepeat rfl
    obtain ⟨i, hi, -, done⟩ := jump [] _ _ rfl rfl
    rw [counts.1] at hi
    cases hi
    exact done

end Lingo
