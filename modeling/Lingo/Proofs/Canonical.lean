import Lingo.Proofs.Bodies

/-!
# Assembled code is canonical

The bytes of an assembled handler are the narrowest encodings of its
instructions, one after another: they decode to just these instructions, with
their offsets and their opcode bytes (`assembled_code_canonical`). This is so
because the sizes that a handler settles on are those that its arguments need
(`Layout.laidOut_narrow`), and narrow encodings read back (`decode_encode`).
-/

namespace Lingo

open Layout

/-- The instructions that lines spell can stand in bytecode. -/
theorem Spells.takes {lines : List (List Token)} {body : List Pending} {labels : Labels}
    (h : Spells lines body labels) (sizes : List Nat) :
    ∀ p ∈ operations (items body labels) sizes, p.1.Takes p.2 := by
  intro p hp
  obtain ⟨i, hi, rfl⟩ := List.getElem_of_mem hp
  have inside : i < body.length := by simpa [operations, items] using hi
  have member := List.getElem_mem inside
  simp only [operations, items, List.getElem_mapIdx, List.getElem_map]
  refine ⟨h.opcode _ member, fun no => ?_⟩
  rw [h.absent _ member no]
  rfl

/-- Laid out instructions of less than 2³¹ bytes are what their bytes decode to,
and are stored as they are encoded. -/
theorem Spells.canonical {lines : List (List Token)} {body : List Pending} {labels : Labels}
    (h : Spells lines body labels)
    (short : (settledSizes (items body labels)).sum < 2147483648) :
    decode ((laidOut (items body labels)).flatMap fun i => encode i.opcode i.argument) =
        .ok (laidOut (items body labels)) ∧
      ∀ i ∈ laidOut (items body labels), i.bytes = encode i.opcode i.argument := by
  rw [laidOut_narrow short]
  constructor
  · have same : (narrowFrom 0 (operations (items body labels)
          (settledSizes (items body labels)))).flatMap (fun i => encode i.opcode i.argument) =
        (operations (items body labels) (settledSizes (items body labels))).flatMap
          fun p => encode p.1 p.2 := by
      rw [← map_narrowFrom 0 (operations (items body labels) _), List.flatMap_map,
        map_narrowFrom]
    rw [same]
    exact decode_encode _ (h.takes _)
  · intro i hi
    exact bytes_of_mem_narrowFrom hi

/-- The instructions of an assembled handler of less than 2³¹ bytes, encoded one
after another, decode to themselves, with the same offsets and opcode bytes;
and the bytes that each is stored as are its narrowest encoding. -/
theorem assembled_code_canonical {text : String} {lib : Library} (accepted : assemble text = .ok lib)
    {s : Script} (hs : s ∈ lib.scripts) {h : Handler} (hh : h ∈ s.handlers)
    (short : h.byteLength < 2147483648) :
    decode (h.code.toList.flatMap fun i => encode i.opcode i.argument) = .ok h.code.toList ∧
      ∀ i ∈ h.code, i.bytes = encode i.opcode i.argument := by
  obtain ⟨lines, body, labels, spells, hc⟩ := exists_spelled accepted (mem_handlers hs hh)
  have code := spells.code hc
  have total := byteLength_laidOut (h := h) (congrArg List.toArray code)
  rw [total] at short
  have canonical := spells.canonical short
  rw [← code] at canonical
  exact ⟨canonical.1, fun i hi => canonical.2 i (Array.mem_toList_iff.mpr hi)⟩

/-- A loop that is left by a forward jump and repeated by a backward one, over an
argument of two bytes. -/
def loopText : String :=
  "script 1 movie\nhandler f\n@top: JMP_IF_Z @done\nPUSH_INT16 300\nPOP 1\nEND_REPEAT @top\n@done: end\nend\n"

def loopHandler : Handler where
  nameId := 0
  vectorPos := 0
  code := #[⟨0, .jmpIfZ, 0x55, 9⟩, ⟨2, .pushInt16, 0xAE, 300⟩, ⟨5, .pop, 0x65, 1⟩,
    ⟨7, .endRepeat, 0x54, 7⟩]

def loopLibrary : Library where
  names := ⟨#["f"]⟩
  scripts := #[{ member := 1, kind := .movie, handlers := #[loopHandler] }]

theorem assemble_loopText : assemble loopText = .ok loopLibrary :=
  ok_of_toOption (by decide +kernel)

theorem assembled_code_canonical_loop :
    decode (loopHandler.code.toList.flatMap fun i => encode i.opcode i.argument) =
        .ok loopHandler.code.toList ∧
      ∀ i ∈ loopHandler.code, i.bytes = encode i.opcode i.argument :=
  assembled_code_canonical assemble_loopText (Array.mem_singleton.mpr rfl)
    (Array.mem_singleton.mpr rfl) (by decide)

end Lingo
