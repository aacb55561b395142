import Lingo.Proofs.Relisting

/-!
# Boundaries

The boundaries of a handler are the offsets at which its instructions start and the one at which
the last of them ends. They are where a listing can define labels (`Listing.marks`).

* `boundaries_nodup`: no two boundaries of code that is laid out are the same;
* `Spells.jump_boundary`: a jump that is written with a label leads to a boundary;
* `Spells.closed`: if all are, all jumps of the handler lead to boundaries.
-/

namespace Lingo

open Assembly Layout
open Token (offsetLabel)

/-! ## Boundaries -/

/-- The offsets at which the instructions of a handler start, and the one at which the last of
them ends. -/
def Handler.boundaries (h : Handler) : List Int :=
  h.code.toList.map (fun i => (i.offset : Int)) ++ [(h.byteLength : Int)]

/-- All jumps lead to boundaries. -/
def Handler.Closed (h : Handler) : Prop :=
  ∀ n ∈ h.targets, n ∈ h.boundaries

/-- The code of a handler has been laid out, from operations that have mnemonics. -/
structure Handler.Assembled (h : Handler) : Prop where
  boundaries : h.boundaries.Nodup
  valid : ∀ i ∈ h.code, i.opcode ≠ .invalid

namespace Layout

variable {items : List Item} {h : Handler}

theorem boundaries_laidOut (code : h.code = (laidOut items).toArray) :
    h.boundaries =
      (List.range (items.length + 1)).map fun i => (start (settledSizes items) i : Int) := by
  have offsets : (laidOut items).map (fun i => (i.offset : Int)) =
      (List.range items.length).map fun i => (start (settledSizes items) i : Int) := by
    apply List.ext_getElem
    · simp [length_laidOut]
    · intro i hi _
      rw [List.length_map] at hi
      simp [offset_laidOut hi]
  rw [Handler.boundaries, byteLength_laidOut code, ← start_length, List.range_succ, List.map_append,
    ← offsets, code]
  rfl

theorem boundaries_nodup (code : h.code = (laidOut items).toArray) : h.boundaries.Nodup := by
  rw [boundaries_laidOut code]
  refine List.Nodup.map_on (fun i hi j hj same => ?_) List.nodup_range
  rw [List.mem_range] at hi hj
  exact start_inj items i j (by omega) (by omega) (Int.ofNat_inj.mp same)

theorem map_opcode_laidOut (items : List Item) :
    (laidOut items).map (·.opcode) = items.map Prod.fst := by
  apply List.ext_getElem
  · simp [length_laidOut]
  · intro i _ _
    simp [laidOut, placed]

end Layout

theorem Spells.assembled {lines : List (List Token)} {body : List Pending} {labels : Labels}
    {h : Handler} (spells : Spells lines body labels)
    (code : h.code.toList = laidOut (items body labels)) : h.Assembled where
  boundaries := boundaries_nodup (congrArg List.toArray code)
  valid := by
    intro i hi
    have opcode : i.opcode ∈ (laidOut (items body labels)).map (·.opcode) :=
      List.mem_map_of_mem (code ▸ Array.mem_toList_iff.mpr hi)
    rw [map_opcode_laidOut, items, List.map_map] at opcode
    obtain ⟨p, hp, same⟩ := List.mem_map.mp opcode
    exact same ▸ spells.opcode p hp

theorem assembled_of_assemble {text : String} {lib : Library} (accepted : assemble text = .ok lib)
    {s : Script} (hs : s ∈ lib.scripts) {h : Handler} (hh : h ∈ s.handlers) : h.Assembled := by
  obtain ⟨lines, body, labels, spells, laid⟩ := exists_spelled accepted (mem_handlers hs hh)
  exact spells.assembled (spells.code laid)

namespace Listing

variable {targets offsets offsets' : List Int}

/-- The labels that are printed at offsets: of those that jumps lead to. -/
def marks (targets offsets : List Int) : List String :=
  (offsets.filter targets.contains).map offsetLabel

theorem marks_append : marks targets (offsets ++ offsets') =
    marks targets offsets ++ marks targets offsets' := by
  rw [marks, List.filter_append, List.map_append]
  rfl

theorem mem_marks {n : Int} :
    offsetLabel n ∈ marks targets offsets ↔ n ∈ targets ∧ n ∈ offsets := by
  simp only [marks, List.mem_map, List.mem_filter, List.contains_eq_mem, decide_eq_true_eq]
  constructor
  · rintro ⟨m, ⟨offset, leads⟩, same⟩
    exact offsetLabel_inj same ▸ ⟨leads, offset⟩
  · rintro ⟨leads, offset⟩
    exact ⟨n, ⟨offset, leads⟩, rfl⟩

theorem nodup_marks (h : offsets.Nodup) : (marks targets offsets).Nodup :=
  (h.filter _).map fun _ _ same => offsetLabel_inj same

theorem marks_map {α : Type} (offset : α → Int) (xs : List α) :
    marks targets (xs.map offset) = xs.flatMap fun x => marks targets [offset x] := by
  induction xs with
  | nil => rfl
  | cons x xs ih =>
    rw [List.map_cons, List.flatMap_cons, ← ih, ← marks_append]
    rfl

end Listing

/-! ## Jumps that are written with labels -/

theorem Instruction.isJump_of_jumpTarget? (i : Instruction) {n : Int}
    (h : i.jumpTarget? = some n) : i.opcode.isJump = true := by
  by_contra still
  rw [Relisting.jumpTarget?_eq, if_neg still] at h
  cases h

/-- The label that the operand of a jump names. -/
def jumpLabel? (tokens : List Token) : Option String :=
  match statementOf tokens with
  | [.word word, .label name] =>
    if (Opcode.ofMnemonic? word).any Opcode.isJump then some name else none
  | _ => none

theorem jumpLabel?_eq_some_iff {tokens : List Token} {name : String} :
    jumpLabel? tokens = some name ↔ ∃ word op, statementOf tokens = [.word word, .label name] ∧
      Opcode.ofMnemonic? word = some op ∧ op.isJump = true := by
  unfold jumpLabel?
  split
  · rename_i word label written
    cases hop : Opcode.ofMnemonic? word with
    | none => simp [written, hop]
    | some op => cases jump : op.isJump <;> simp [written, hop, jump]
  · rename_i other
    simp only [reduceCtorEq, false_iff]
    rintro ⟨word, op, written, -⟩
    exact other word name written

section

variable {lines : List (List Token)} {body : List Pending} {labels : Labels} {h : Handler}
  (spells : Spells lines body labels) (laid : layout body labels = .ok h.code.toList)
  (short : h.byteLength < 2147483648)
include spells laid short

/-- A jump that is written with a label leads to a boundary. -/
theorem Spells.jump_boundary {before after : List (List Token)} {line : List Token} {name : String}
    (split : lines = before ++ line :: after) (written : jumpLabel? line = some name) :
    ∃ i, ∃ n ∈ h.boundaries,
      h.code[instructionCount before]? = some i ∧ i.jumpTarget? = some n := by
  have code : h.code = (laidOut (items body labels)).toArray :=
    congrArg List.toArray (spells.code laid)
  obtain ⟨word, op, statement, mnemonic, jump⟩ := jumpLabel?_eq_some_iff.mp written
  obtain ⟨number, here⟩ := spells.jump before line after word op name split statement mnemonic
  obtain ⟨target, found⟩ := Option.isSome_iff_exists.mp
    (resolves_of_layout laid _ (List.mem_of_getElem? here) name rfl)
  have item : (items body labels)[instructionCount before]? = some (op, .index target) := by
    rw [items, List.getElem?_map, here, Option.map_some, resolve, found, Option.getD_some]
  have inside : target < (items body labels).length + 1 := by
    rw [items, List.length_map]
    exact Nat.lt_succ_of_le (spells.within name target found)
  rw [byteLength_laidOut code] at short
  obtain ⟨i, there, opcode, leads⟩ := laidOut_jump short item
  refine ⟨i, start (settledSizes (items body labels)) target, ?_, ?_, ?_⟩
  · rw [boundaries_laidOut code]
    exact List.mem_map_of_mem (List.mem_range.mpr inside)
  · rw [code, List.getElem?_toArray, there]
  · rw [Relisting.jumpTarget?_eq, opcode, if_pos jump, Instruction.target, opcode, leads]

/-- If all jumps are written with labels, all lead to boundaries. -/
theorem Spells.closed (labelled : ∀ line ∈ lines, (opcodeOf line).any Opcode.isJump = true →
    (jumpLabel? line).isSome = true) : h.Closed := by
  intro n hn
  obtain ⟨i, hi, target⟩ := List.mem_filterMap.mp hn
  obtain ⟨k, here⟩ := List.getElem?_of_mem hi
  -- The instruction comes from a line, which is one of a jump, too.
  have opcodes : h.code.toList.map (·.opcode) = body.map (·.opcode) := by
    rw [spells.code laid, map_opcode_laidOut, items, List.map_map]
    rfl
  have same : some i.opcode = body[k]?.map (·.opcode) := by
    rw [← List.getElem?_map, ← opcodes, List.getElem?_map, here, Option.map_some]
  obtain ⟨p, hp, opcode⟩ := Option.map_eq_some_iff.mp same.symm
  obtain ⟨before, line, after, split, rfl, written⟩ := spells.origin k p hp
  have jump : (opcodeOf line).any Opcode.isJump = true := by
    rw [written, Option.any_some, opcode, i.isJump_of_jumpTarget? target]
  obtain ⟨name, label⟩ := Option.isSome_iff_exists.mp (labelled line (by rw [split]; simp) jump)
  obtain ⟨i', n', boundary, there, leads⟩ := spells.jump_boundary laid short split label
  rw [← Array.getElem?_toList, here] at there
  cases there
  cases target.symm.trans leads
  exact boundary

end

end Lingo
