import Mathlib.Algebra.Ring.Nat
import Mathlib.Data.Bool.AllAny
import Mathlib.Data.List.Induction
import Lingo.Proofs.Encoding

/-!
# Any bytes, decoded

What `decode` makes of bytes that nobody encoded. An instruction is stored
faithfully (`Instruction.Stored`) if its opcode byte tells the operation and the
bytes behind it can hold the argument; `Stream` puts the bytes of such
instructions one after another.

* `argumentBytes_decodeArgument`: no byte of an argument is lost when it is read;
* `exists_stream`: any bytes are a stream, followed by nothing or by an
  instruction whose argument is cut short;
* `decode_exact`: so decoding gives all instructions of the bytes, or the place
  where they are cut short;
* `encode_round_trip_minimal`: encoded instructions are read back, and no bytes
  that are read as the same instruction are fewer.
-/

namespace Lingo

/-! ## Arguments -/

theorem ofBigEndian_lt (bytes : List UInt8) : ofBigEndian bytes < Nat.pow 256 bytes.length := by
  induction bytes using List.reverseRecOn with
  | nil => decide
  | append_singleton bytes b ih =>
    have byte : b.toNat < 256 := b.toNat_lt
    rw [ofBigEndian_append, List.length_append, List.length_singleton,
      show Nat.pow 256 (bytes.length + 1) = Nat.pow 256 bytes.length * 256 from rfl]
    omega

theorem toBigEndian_ofBigEndian (bytes : List UInt8) :
    toBigEndian bytes.length (ofBigEndian bytes) = bytes := by
  induction bytes using List.reverseRecOn with
  | nil => rfl
  | append_singleton bytes b ih =>
    have byte : b.toNat < 256 := b.toNat_lt
    have high : (ofBigEndian bytes * 256 + b.toNat) / 256 = ofBigEndian bytes := by omega
    have low : (ofBigEndian bytes * 256 + b.toNat) % 256 = b.toNat := by omega
    rw [ofBigEndian_append, List.length_append, List.length_singleton, toBigEndian, high, low, ih]
    simp

/-- The numbers of bytes that an argument can have. -/
theorem argumentWidth_cases (raw : UInt8) :
    argumentWidth raw = 0 ∨ argumentWidth raw = 1 ∨ argumentWidth raw = 2 ∨
      argumentWidth raw = 4 := by
  unfold argumentWidth
  split_ifs <;> simp

section

variable {op : Opcode} {bytes : List UInt8}
  (width : bytes.length = 0 ∨ bytes.length = 1 ∨ bytes.length = 2 ∨ bytes.length = 4)
include width

/-- Reading an argument neither wraps nor rounds. -/
theorem decodeArgument_toInt :
    (decodeArgument op bytes).toInt =
      if op.signedAt bytes.length then (ofBigEndian bytes : Int).bmod (Nat.pow 256 bytes.length)
      else ofBigEndian bytes := by
  have small := ofBigEndian_lt bytes
  unfold decodeArgument
  dsimp only
  split
  · rw [Int32.toInt_ofInt]
    generalize ofBigEndian bytes = n at small ⊢
    rcases width with w | w | w | w <;> rw [w] at small ⊢ <;>
      simp only [Nat.pow_eq, Nat.reducePow, Int32.size, Int.bmod_def] at small ⊢ <;> omega
  · rename_i unsigned
    have short : bytes.length ≠ 4 := by
      intro four
      rw [four] at unsigned
      exact unsigned (by simp [Opcode.signedAt])
    refine Int32.toInt_ofNat_of_lt (Nat.lt_of_lt_of_le small ?_)
    rcases width with w | w | w | w
    · rw [w]
      decide
    · rw [w]
      decide
    · rw [w]
      decide
    · exact absurd w short

/-- The argument that bytes stand for fits as many bytes. -/
theorem fits_decodeArgument : op.fits bytes.length (decodeArgument op bytes) = true := by
  have value := @decodeArgument_toInt op bytes width
  have small := ofBigEndian_lt bytes
  unfold Opcode.fits
  dsimp only
  rw [value]
  generalize ofBigEndian bytes = n at small ⊢
  split
  · rename_i signed
    have some : bytes.length ≠ 0 := by
      intro none
      rw [none] at signed
      simp [Opcode.signedAt] at signed
    rw [Bool.and_eq_true, decide_eq_true_eq, decide_eq_true_eq, Int.bmod_def]
    rcases width with w | w | w | w
    · exact absurd w some
    all_goals
      rw [w] at small ⊢
      simp only [Nat.pow_eq, Nat.reducePow] at small ⊢
      omega
  · rw [Bool.and_eq_true, decide_eq_true_eq, decide_eq_true_eq]
    omega

/-- The argument that bytes stand for is stored as these bytes. -/
theorem argumentBytes_decodeArgument :
    argumentBytes bytes.length (decodeArgument op bytes) = bytes := by
  have value := @decodeArgument_toInt op bytes width
  have bits := toInt_eq_bmod (decodeArgument op bytes)
  have range := toUInt32_toNat_lt (decodeArgument op bytes)
  have small := ofBigEndian_lt bytes
  have low : (decodeArgument op bytes).toUInt32.toNat % Nat.pow 256 bytes.length =
      ofBigEndian bytes := by
    rw [bits] at value
    generalize (decodeArgument op bytes).toUInt32.toNat = u at value range ⊢
    generalize ofBigEndian bytes = n at value small ⊢
    rcases width with w | w | w | w <;> rw [w] at value small ⊢ <;>
      simp only [Nat.pow_eq, Nat.reducePow, Int.bmod_def] at value small ⊢ <;>
      split at value <;> omega
  have same := toBigEndian_ofBigEndian (argumentBytes bytes.length (decodeArgument op bytes))
  rw [length_argumentBytes] at same
  rw [← same, argumentBytes, ofBigEndian_toBigEndian, low, toBigEndian_ofBigEndian]

end

/-! ## Stored instructions -/

/-- An instruction as it can stand in a stream: its opcode byte tells the
operation, and its argument fits the bytes that follow. -/
structure Instruction.Stored (i : Instruction) : Prop where
  opcode : i.opcode = Opcode.ofByte i.raw
  argument : i.opcode.fits (argumentWidth i.raw) i.argument = true

theorem Instruction.length_bytes (i : Instruction) : i.bytes.length = i.width := by
  rw [bytes, List.length_cons, length_argumentBytes, width, Nat.add_comm]

/-- What an opcode byte and as many bytes as it asks for are read as. -/
def instructionAt (offset : Nat) (raw : UInt8) (argument : List UInt8) : Instruction :=
  ⟨offset, .ofByte raw, raw, decodeArgument (.ofByte raw) argument⟩

theorem stored_instructionAt (offset : Nat) {raw : UInt8} {argument : List UInt8}
    (length : argument.length = argumentWidth raw) :
    (instructionAt offset raw argument).Stored ∧
      (instructionAt offset raw argument).bytes = raw :: argument := by
  have width := argumentWidth_cases raw
  rw [← length] at width
  refine ⟨⟨rfl, ?_⟩, ?_⟩
  · have fits := @fits_decodeArgument (.ofByte raw) argument width
    rwa [length] at fits
  · have same := @argumentBytes_decodeArgument (.ofByte raw) argument width
    rw [length] at same
    exact congrArg (raw :: ·) same

/-- A stored argument is read back, also where there is none. -/
theorem Instruction.Stored.decodeArgument {i : Instruction} (h : i.Stored) :
    decodeArgument i.opcode (argumentBytes (argumentWidth i.raw) i.argument) = i.argument := by
  have fits := h.argument
  rcases argumentWidth_cases i.raw with none | some
  · rw [none] at fits ⊢
    have unsigned : i.opcode.signedAt 0 = false := by simp [Opcode.signedAt]
    have zero : i.argument.toInt = 0 := by
      simp only [Opcode.fits, unsigned, Bool.false_eq_true, if_false, Bool.and_eq_true,
        decide_eq_true_eq, Nat.pow_eq, Nat.pow_zero] at fits
      omega
    exact Int32.toInt_inj.mp (show (0 : Int32).toInt = _ from zero.symm)
  · exact decodeArgument_argumentBytes some fits

/-- A stored instruction at the head of a stream is read. -/
theorem decodeFrom_stored {i : Instruction} (h : i.Stored) (done : List Instruction)
    (rest : List UInt8) :
    decodeFrom done i.offset (i.bytes ++ rest) =
      decodeFrom (i :: done) (i.offset + i.width) rest := by
  have length := length_argumentBytes (argumentWidth i.raw) i.argument
  have argument := h.decodeArgument
  rw [h.opcode] at argument
  have same : (⟨i.offset, .ofByte i.raw, i.raw, i.argument⟩ : Instruction) = i :=
    congrArg (Instruction.mk i.offset · i.raw i.argument) h.opcode.symm
  rw [Instruction.bytes, List.cons_append, decodeFrom]
  simp only [List.take_left' length, List.drop_left' length, length, Nat.lt_irrefl, if_false,
    argument, same, Instruction.width, Nat.add_assoc]

/-! ## Streams -/

/-- The bytes of stored instructions, one after another from an offset on. -/
inductive Stream : Nat → List Instruction → List UInt8 → Prop
  | nil (offset : Nat) : Stream offset [] []
  | cons {i : Instruction} {code : List Instruction} {bytes : List UInt8} (stored : i.Stored)
    (rest : Stream (i.offset + i.width) code bytes) :
    Stream i.offset (i :: code) (i.bytes ++ bytes)

section

variable {offset : Nat} {code : List Instruction} {bytes : List UInt8}

/-- The instructions of a stream are read, whatever follows it. -/
theorem Stream.decodeFrom (h : Stream offset code bytes) (done : List Instruction)
    (rest : List UInt8) :
    decodeFrom done offset (bytes ++ rest) =
      decodeFrom (code.reverse ++ done) (offset + bytes.length) rest := by
  induction h generalizing done with
  | nil offset => rfl
  | @cons i code bytes stored tail ih =>
    rw [List.append_assoc, decodeFrom_stored stored, ih, List.reverse_cons, List.append_assoc,
      List.length_append, i.length_bytes, Nat.add_assoc]
    rfl

theorem Stream.decode (h : Stream 0 code bytes) : decode bytes = .ok code := by
  have read := h.decodeFrom [] []
  rw [List.append_nil, List.append_nil] at read
  rw [Lingo.decode, read, Lingo.decodeFrom, List.reverse_reverse]

theorem Stream.bytes_eq (h : Stream offset code bytes) :
    code.flatMap Instruction.bytes = bytes := by
  induction h with
  | nil offset => rfl
  | cons stored tail ih => rw [List.flatMap_cons, ih]

theorem Stream.stored (h : Stream offset code bytes) : ∀ i ∈ code, i.Stored := by
  induction h with
  | nil offset => exact fun _ hi => absurd hi List.not_mem_nil
  | cons stored tail ih =>
    intro i hi
    rcases List.mem_cons.mp hi with rfl | hi
    · exact stored
    · exact ih i hi

theorem Stream.total (h : Stream offset code bytes) :
    (code.map Instruction.width).sum = bytes.length := by
  induction h with
  | nil offset => rfl
  | @cons i code bytes stored tail ih =>
    rw [List.map_cons, List.sum_cons, ih, List.length_append, i.length_bytes]

/-- An instruction of a stream starts behind the widths of those before it. -/
theorem Stream.offset_eq (h : Stream offset code bytes) (k : Nat) (hk : k < code.length) :
    code[k].offset = offset + ((code.take k).map Instruction.width).sum := by
  induction h generalizing k with
  | nil offset => exact absurd hk (Nat.not_lt_zero k)
  | cons stored tail ih =>
    cases k with
    | zero => rfl
    | succ k =>
      rw [List.getElem_cons_succ, ih k (Nat.lt_of_succ_lt_succ hk), List.take_succ_cons,
        List.map_cons, List.sum_cons, Nat.add_assoc]

end

/-! ## Bytes that are cut short -/

/-- Bytes that are too few for the argument of their opcode byte. -/
def CutShort (bytes : List UInt8) : Prop :=
  ∃ raw rest, bytes = raw :: rest ∧ rest.length < argumentWidth raw

/-- Any bytes are a stream, followed by nothing or by what is cut short. -/
theorem exists_stream (offset : Nat) (bytes : List UInt8) :
    ∃ code before rest, bytes = before ++ rest ∧ Stream offset code before ∧
      (rest = [] ∨ CutShort rest) := by
  induction n : bytes.length using Nat.strongRecOn generalizing offset bytes with
  | ind n ih =>
    subst n
    rcases bytes with _ | ⟨raw, bytes⟩
    · exact ⟨[], [], [], rfl, .nil offset, .inl rfl⟩
    · rcases Nat.lt_or_ge bytes.length (argumentWidth raw) with short | enough
      · exact ⟨[], [], _, rfl, .nil offset, .inr ⟨raw, bytes, rfl, short⟩⟩
      · have length : (bytes.take (argumentWidth raw)).length = argumentWidth raw :=
          List.length_take_of_le enough
        obtain ⟨stored, same⟩ := stored_instructionAt offset length
        have fewer : (bytes.drop (argumentWidth raw)).length < (raw :: bytes).length := by
          rw [List.length_drop, List.length_cons]
          omega
        obtain ⟨code, before, rest, split, stream, ending⟩ :=
          ih _ fewer (offset + (instructionAt offset raw _).width) _ rfl
        refine ⟨_, _, rest, ?_, .cons stored stream, ending⟩
        rw [same, List.append_assoc, ← split, List.cons_append, List.take_append_drop]

/-- What is read of a stream that is cut short. -/
theorem decode_cutShort {code : List Instruction} {before rest : List UInt8} {raw : UInt8}
    (stream : Stream 0 code before) (short : rest.length < argumentWidth raw) :
    decode (before ++ raw :: rest) =
      .error (.truncated before.length (argumentWidth raw) rest.length) := by
  have fewer : (rest.take (argumentWidth raw)).length < argumentWidth raw := by
    rw [List.length_take]
    omega
  rw [decode, stream.decodeFrom, decodeFrom]
  simp only [if_pos fewer, Nat.zero_add]

/-- What is read completely is a stream. -/
theorem stream_of_decode {code : List Instruction} {bytes : List UInt8}
    (h : decode bytes = .ok code) : Stream 0 code bytes := by
  obtain ⟨code', before, rest, rfl, stream, rfl | ⟨raw, tail, rfl, short⟩⟩ := exists_stream 0 bytes
  · rw [List.append_nil] at h ⊢
    rw [stream.decode] at h
    cases h
    exact stream
  · rw [decode_cutShort stream short] at h
    cases h

/-- Instructions that are all of the given bytes. -/
structure Tiles (code : List Instruction) (bytes : List UInt8) : Prop where
  /-- Each starts where those before it end. -/
  offset : ∀ k (h : k < code.length), code[k].offset = ((code.take k).map Instruction.width).sum
  total : (code.map Instruction.width).sum = bytes.length
  bytes : code.flatMap Instruction.bytes = bytes
  stored : ∀ i ∈ code, i.Stored

theorem Stream.tiles {code : List Instruction} {bytes : List UInt8} (h : Stream 0 code bytes) :
    Tiles code bytes where
  offset := fun k hk => by rw [h.offset_eq k hk, Nat.zero_add]
  total := h.total
  bytes := h.bytes_eq
  stored := h.stored

/-- Any bytes are decoded to instructions that are all of them, or else to the
place of an opcode byte whose argument they cut short, while what stands before
it is decoded. -/
theorem decode_exact (bytes : List UInt8) :
    (∃ code, decode bytes = .ok code ∧ Tiles code bytes) ∨
      ∃ offset raw before, bytes[offset]? = some raw ∧ decode (bytes.take offset) = .ok before ∧
        bytes.length - offset - 1 < argumentWidth raw ∧
        decode bytes =
          .error (.truncated offset (argumentWidth raw) (bytes.length - offset - 1)) := by
  obtain ⟨code, before, rest, rfl, stream, rfl | ⟨raw, tail, rfl, short⟩⟩ := exists_stream 0 bytes
  · rw [List.append_nil]
    exact .inl ⟨code, stream.decode, stream.tiles⟩
  · have left : (before ++ raw :: tail).length - before.length - 1 = tail.length := by
      rw [List.length_append, List.length_cons]
      omega
    refine .inr ⟨before.length, raw, code, ?_, ?_, ?_, ?_⟩
    · rw [List.getElem?_append_right (Nat.le_refl _), Nat.sub_self, List.getElem?_cons_zero]
    · rw [List.take_left]
      exact stream.decode
    · rw [left]
      exact short
    · rw [left]
      exact decode_cutShort stream short

/-! ## Narrowest encodings -/

/-- A byte that stands for an operation with an argument asks for one. -/
theorem argumentWidth_pos {raw : UInt8} (h : (Opcode.ofByte raw).takesArgument = true) :
    argumentWidth raw ≠ 0 := by
  intro none
  have low : raw.toNat < 0x40 := by
    unfold argumentWidth at none
    split_ifs at none with low
    exact low
  unfold Opcode.ofByte at h
  dsimp only at h
  rw [if_pos low] at h
  cases found : Opcode.all.find? (·.code == raw.toNat) with
  | none =>
    rw [found] at h
    exact absurd h (by decide)
  | some op =>
    have code : op.code = raw.toNat := by simpa using List.find?_some found
    rw [found, Option.getD_some, Opcode.takesArgument, decide_eq_true_eq] at h
    omega

/-- No stored argument is narrower than the narrowest. -/
theorem Instruction.Stored.narrowest_le {i : Instruction} (h : i.Stored) :
    i.opcode.narrowest i.argument ≤ argumentWidth i.raw := by
  have fits := h.argument
  unfold Opcode.narrowest
  cases takes : i.opcode.takesArgument with
  | false => exact Nat.zero_le _
  | true =>
    have some : argumentWidth i.raw ≠ 0 := argumentWidth_pos (h.opcode ▸ takes)
    simp only [Bool.not_true, Bool.false_eq_true, if_false]
    rcases argumentWidth_cases i.raw with w | w | w | w
    · exact absurd w some
    · rw [w] at fits ⊢
      rw [if_pos fits]
    · rw [w] at fits ⊢
      rw [if_pos fits]
      split <;> omega
    · rw [w]
      repeat' split
      all_goals omega

/-- Bytes that are read as one instruction are no fewer than its encoding. -/
theorem length_encode_le {bytes : List UInt8} {i : Instruction} (h : decode bytes = .ok [i]) :
    (encode i.opcode i.argument).length ≤ bytes.length := by
  have stream := stream_of_decode h
  have total := stream.total
  have narrow := (stream.stored i List.mem_cons_self).narrowest_le
  rw [List.map_singleton, List.sum_singleton, Instruction.width] at total
  rw [encode, List.length_cons, length_argumentBytes, ← total]
  omega

/-- Operations with arguments, encoded one after another, are read back in order,
and no bytes that are read as one of them alone are fewer than its encoding. -/
theorem encode_round_trip_minimal (ops : List (Opcode × Int32)) (h : ∀ p ∈ ops, p.1.Takes p.2) :
    (∃ code, decode (ops.flatMap fun p => encode p.1 p.2) = .ok code ∧
        code.map (fun i => (i.opcode, i.argument)) = ops) ∧
      ∀ p ∈ ops, ∀ bytes i, decode bytes = .ok [i] → (i.opcode, i.argument) = p →
        (encode p.1 p.2).length ≤ bytes.length := by
  refine ⟨⟨_, decode_encode ops h, map_narrowFrom 0 ops⟩, fun p _ bytes i read same => ?_⟩
  rw [← same]
  exact length_encode_le read

/-- The edges of the widths, next to each other in one stream. -/
def edgeArguments : List (Opcode × Int32) :=
  [(.pushInt8, 127), (.pushInt8, 128), (.pushInt8, -128), (.pushInt8, -129),
   (.pushInt16, 255), (.pushInt16, 256), (.pushInt16, -1), (.pushInt16, 32768),
   (.getLocal, 255), (.getLocal, 256), (.jmp, 65535), (.jmp, 65536), (.jmp, -1), (.ret, 0)]

theorem encode_round_trip_minimal_edges :
    (∃ code, decode (edgeArguments.flatMap fun p => encode p.1 p.2) = .ok code ∧
        code.map (fun i => (i.opcode, i.argument)) = edgeArguments) ∧
      ∀ p ∈ edgeArguments, ∀ bytes i, decode bytes = .ok [i] → (i.opcode, i.argument) = p →
        (encode p.1 p.2).length ≤ bytes.length :=
  encode_round_trip_minimal edgeArguments (List.all_iff_forall_prop.mp (by decide))

end Lingo
