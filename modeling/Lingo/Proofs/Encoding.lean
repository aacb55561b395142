import Lingo.Code.Instruction

/-!
# Encoded instructions read back

`encode` writes an instruction with the narrowest argument, and `decode` reads
such bytes back.

* `decodeArgument_argumentBytes`: an argument that fits a width is read back
  from that many bytes;
* `ofByte_byteFor`, `argumentWidth_byteFor`: the opcode byte tells the operation
  and the width of the argument;
* `decode_encode`: so a stream of encoded instructions decodes to these
  instructions, laid out one after another (`narrowFrom`).
-/

namespace Lingo

/-! ## Big-endian bytes -/

@[simp] theorem length_toBigEndian (width n : Nat) : (toBigEndian width n).length = width := by
  induction width generalizing n with
  | zero => rfl
  | succ width ih => rw [toBigEndian, List.length_append, ih, List.length_singleton]

theorem ofBigEndian_append (bytes : List UInt8) (b : UInt8) :
    ofBigEndian (bytes ++ [b]) = ofBigEndian bytes * 256 + b.toNat := by
  simp [ofBigEndian]

theorem ofBigEndian_toBigEndian (width n : Nat) :
    ofBigEndian (toBigEndian width n) = n % Nat.pow 256 width := by
  induction width generalizing n with
  | zero => exact (Nat.mod_one n).symm
  | succ width ih =>
    have low : ((n % 256).toUInt8).toNat = n % 256 := by simp
    have split : n % Nat.pow 256 (width + 1) = n % 256 + 256 * (n / 256 % Nat.pow 256 width) := by
      rw [show Nat.pow 256 (width + 1) = 256 * Nat.pow 256 width from Nat.mul_comm _ _,
        Nat.mod_mul]
    rw [toBigEndian, ofBigEndian_append, ih, low, split]
    omega

/-! ## Arguments -/

/-- The bits of a 32-bit integer, as a natural number, and its value. -/
theorem toInt_eq_bmod (n : Int32) : n.toInt = (n.toUInt32.toNat : Int).bmod 4294967296 :=
  BitVec.toInt_eq_toNat_bmod n.toBitVec

theorem toUInt32_toNat_lt (n : Int32) : n.toUInt32.toNat < 4294967296 :=
  n.toUInt32.toNat_lt

theorem length_argumentBytes (width : Nat) (n : Int32) : (argumentBytes width n).length = width :=
  length_toBigEndian _ _

/-- A signed argument within the range of its width. -/
theorem bmod_of_range {width : Nat} (hw : width = 1 ∨ width = 2 ∨ width = 4) {n : Int32}
    (low : -((Nat.pow 256 width : Nat) / 2 : Int) ≤ n.toInt)
    (high : n.toInt < (Nat.pow 256 width : Nat) / 2) :
    ((n.toUInt32.toNat % Nat.pow 256 width : Nat) : Int).bmod (Nat.pow 256 width) = n.toInt := by
  have bits := toInt_eq_bmod n
  have small := toUInt32_toNat_lt n
  rw [Int.bmod_def] at bits ⊢
  rcases hw with rfl | rfl | rfl <;> simp only [Nat.pow_eq, Nat.reducePow] at * <;> omega

/-- An unsigned argument within the range of its width. -/
theorem toNat_of_range {width : Nat} {n : Int32} (low : 0 ≤ n.toInt)
    (high : n.toInt < (Nat.pow 256 width : Nat)) :
    n.toUInt32.toNat % Nat.pow 256 width = n.toInt.toNat := by
  have bits := toInt_eq_bmod n
  have small := toUInt32_toNat_lt n
  rw [Int.bmod_def] at bits
  have same : (n.toUInt32.toNat : Int) = n.toInt := by omega
  rw [Nat.mod_eq_of_lt] <;> omega

/-- An argument that fits is read back. -/
theorem decodeArgument_argumentBytes {op : Opcode} {width : Nat} {n : Int32}
    (hw : width = 1 ∨ width = 2 ∨ width = 4) (fits : op.fits width n = true) :
    decodeArgument op (argumentBytes width n) = n := by
  unfold Opcode.fits at fits
  unfold decodeArgument
  simp only [length_argumentBytes]
  rw [argumentBytes, ofBigEndian_toBigEndian]
  split at fits
  · rename_i signed
    simp only [Bool.and_eq_true, decide_eq_true_eq] at fits
    rw [if_pos signed, bmod_of_range hw fits.1 fits.2, Int32.ofInt_toInt]
  · rename_i unsigned
    simp only [Bool.and_eq_true, decide_eq_true_eq] at fits
    rw [if_neg unsigned, toNat_of_range fits.1 fits.2, ← Int32.ofInt_eq_ofNat,
      Int.toNat_of_nonneg fits.1, Int32.ofInt_toInt]

theorem fits_four (op : Opcode) (n : Int32) : op.fits 4 n = true := by
  have low := n.le_toInt
  have high := n.toInt_lt
  have signed : op.signedAt 4 = true := by simp [Opcode.signedAt]
  simp only [Opcode.fits, signed, if_true, Bool.and_eq_true, decide_eq_true_eq, Nat.pow_eq,
    Nat.reducePow]
  omega

/-! ## Opcode bytes -/

/-- How many bytes an argument of an operation may take. -/
def Opcode.Width (op : Opcode) (width : Nat) : Prop :=
  if op.takesArgument then width = 1 ∨ width = 2 ∨ width = 4 else width = 0

theorem Opcode.narrowest_width (op : Opcode) (n : Int32) : op.Width (op.narrowest n) := by
  unfold Opcode.Width Opcode.narrowest
  cases op.takesArgument
  · simp
  · simp only [Bool.not_true, if_true, Bool.false_eq_true, if_false]
    split
    · exact .inl rfl
    · split
      · exact .inr (.inl rfl)
      · exact .inr (.inr rfl)

theorem Opcode.narrowest_fits {op : Opcode} (h : op.takesArgument = true) (n : Int32) :
    op.fits (op.narrowest n) n = true := by
  unfold Opcode.narrowest
  simp only [h, Bool.not_true, Bool.false_eq_true, if_false]
  split
  · assumption
  · split
    · assumption
    · exact fits_four op n

/-- No two operations have the same code. -/
theorem Opcode.find?_code {op : Opcode} (h : op ≠ .invalid) :
    all.find? (·.code == op.code) = some op := by
  have found : ∀ op ∈ all, all.find? (·.code == op.code) = some op := by decide +kernel
  exact found op (mem_all h)

theorem Opcode.code_lt (op : Opcode) : op.code < 0x80 := by
  cases op <;> decide

theorem Opcode.byteFor_toNat (op : Opcode) (width : Nat) :
    (op.byteFor width).toNat =
      if !op.takesArgument then op.code
      else op.code + if width ≤ 1 then 0 else if width = 2 then 0x40 else 0x80 := by
  have small := op.code_lt
  unfold Opcode.byteFor
  simp only [beq_iff_eq]
  split
  · simp; omega
  · split
    · simp; omega
    · split <;> simp <;> omega

theorem argumentWidth_byteFor {op : Opcode} {width : Nat} (hw : op.Width width) :
    argumentWidth (op.byteFor width) = width := by
  have small := op.code_lt
  have takes : op.takesArgument = true ↔ 0x40 ≤ op.code := by simp [Opcode.takesArgument]
  unfold Opcode.Width at hw
  unfold argumentWidth
  rw [Opcode.byteFor_toNat]
  cases h : op.takesArgument
  · simp only [h, Bool.false_eq_true, if_false] at hw
    simp only [Bool.not_false, if_true]
    rw [if_pos (by rw [h] at takes; simp at takes; omega), hw]
  · simp only [h, if_true] at hw
    have least := takes.mp h
    simp only [Bool.not_true, Bool.false_eq_true, if_false]
    rcases hw with rfl | rfl | rfl <;> simp <;> repeat' split
    all_goals omega

theorem ofByte_byteFor {op : Opcode} (hop : op ≠ .invalid) (width : Nat) :
    Opcode.ofByte (op.byteFor width) = op := by
  have small := op.code_lt
  have takes : op.takesArgument = true ↔ 0x40 ≤ op.code := by simp [Opcode.takesArgument]
  have folded : (if (op.byteFor width).toNat < 0x40 then (op.byteFor width).toNat
      else 0x40 + (op.byteFor width).toNat % 0x40) = op.code := by
    rw [Opcode.byteFor_toNat]
    cases h : op.takesArgument
    · rw [h] at takes
      simp at takes ⊢
      omega
    · have least := takes.mp h
      simp only [Bool.not_true, Bool.false_eq_true, if_false]
      repeat' split
      all_goals omega
  unfold Opcode.ofByte
  simp only [folded]
  rw [Opcode.find?_code hop]
  rfl

/-! ## Streams -/

/-- An operation that stands in bytecode, with an argument only if it takes one. -/
def Opcode.Takes (op : Opcode) (argument : Int32) : Prop :=
  op ≠ .invalid ∧ (op.takesArgument = false → argument = 0)

instance (op : Opcode) (argument : Int32) : Decidable (op.Takes argument) :=
  inferInstanceAs (Decidable (_ ∧ _))

theorem decodeArgument_narrowest {op : Opcode} {n : Int32} (h : op.Takes n) :
    decodeArgument op (argumentBytes (op.narrowest n) n) = n := by
  have hw := op.narrowest_width n
  unfold Opcode.Width at hw
  cases ht : op.takesArgument with
  | true =>
    rw [ht, if_pos rfl] at hw
    exact decodeArgument_argumentBytes hw (Opcode.narrowest_fits ht n)
  | false =>
    rw [ht] at hw
    rw [if_neg Bool.false_ne_true] at hw
    rw [hw, h.2 ht]
    simp [argumentBytes, toBigEndian, decodeArgument, ofBigEndian, Opcode.signedAt]

/-- The first instruction of a stream. -/
theorem decodeFrom_encode (done : List Instruction) (offset : Nat) {op : Opcode} {n : Int32}
    (h : op.Takes n) (rest : List UInt8) :
    decodeFrom done offset (encode op n ++ rest) =
      decodeFrom (Instruction.narrow offset op n :: done) (offset + (1 + op.narrowest n)) rest := by
  have hw := op.narrowest_width n
  have hl : (argumentBytes (op.narrowest n) n).length = op.narrowest n := length_argumentBytes _ _
  rw [encode, List.cons_append, decodeFrom]
  simp only [argumentWidth_byteFor hw, ofByte_byteFor h.1, List.take_left' hl,
    List.drop_left' hl, hl, Nat.lt_irrefl, if_false, decodeArgument_narrowest h, Nat.add_assoc]
  rfl

/-- Instructions with their narrowest encodings, one after another from an
offset on. -/
def narrowFrom : Nat → List (Opcode × Int32) → List Instruction
  | _, [] => []
  | offset, (op, n) :: rest =>
    .narrow offset op n :: narrowFrom (offset + (1 + op.narrowest n)) rest

theorem map_narrowFrom (offset : Nat) (ops : List (Opcode × Int32)) :
    (narrowFrom offset ops).map (fun i => (i.opcode, i.argument)) = ops := by
  induction ops generalizing offset with
  | nil => rfl
  | cons p ops ih => rw [narrowFrom, List.map_cons, ih]; rfl

theorem Instruction.bytes_narrow (offset : Nat) (op : Opcode) (n : Int32) :
    (Instruction.narrow offset op n).bytes = encode op n :=
  congrArg (op.byteFor (op.narrowest n) :: argumentBytes · n)
    (argumentWidth_byteFor (op.narrowest_width n))

theorem bytes_of_mem_narrowFrom {offset : Nat} {ops : List (Opcode × Int32)} {i : Instruction}
    (h : i ∈ narrowFrom offset ops) : i.bytes = encode i.opcode i.argument := by
  induction ops generalizing offset with
  | nil => cases h
  | cons p ops ih =>
    rcases List.mem_cons.mp h with rfl | h
    · exact Instruction.bytes_narrow _ _ _
    · exact ih h

theorem decodeFrom_flatMap (ops : List (Opcode × Int32)) (h : ∀ p ∈ ops, p.1.Takes p.2)
    (done : List Instruction) (offset : Nat) :
    decodeFrom done offset (ops.flatMap fun p => encode p.1 p.2) =
      .ok (done.reverse ++ narrowFrom offset ops) := by
  induction ops generalizing done offset with
  | nil => rw [List.flatMap_nil, decodeFrom, narrowFrom, List.append_nil]
  | cons p rest ih =>
    rw [List.flatMap_cons, decodeFrom_encode _ _ (h p List.mem_cons_self),
      ih (fun q hq => h q (List.mem_cons_of_mem p hq)), List.reverse_cons, narrowFrom,
      List.append_assoc]
    rfl

/-- Encoded instructions decode to themselves, at the offsets that they have. -/
theorem decode_encode (ops : List (Opcode × Int32)) (h : ∀ p ∈ ops, p.1.Takes p.2) :
    decode (ops.flatMap fun p => encode p.1 p.2) = .ok (narrowFrom 0 ops) :=
  decodeFrom_flatMap ops h [] 0

end Lingo
