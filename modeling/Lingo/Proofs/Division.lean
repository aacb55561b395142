import Lingo.Memory.Arithmetic
import Lingo.Proofs.Operands

/-!
# Quotients and remainders

Division looks at its divisor as a float, and the remainder as an integer where neither
operand makes the result a float. Both find zero in the same divisors:

* `readDouble_of_readInteger`: a text that spells an integer spells a float as well, and
  one is zero if the other is;
* `Value.isZero_toDouble`: so do the two readings of any value that is no float;
* `div_mul_add_mod`: the quotient and the remainder of integers make up the dividend,
  also where the quotient wraps;
* `division_agrees`: what follows for the two operations.
-/

namespace Lingo

namespace Number

/-! ## Doubles of integers -/

theorem Double.magnitude_ofMagnitude (negative : Bool) {m : Nat} (h : m < signBit) :
    (ofMagnitude negative m).magnitude = m := by
  have bit : signBit = 9223372036854775808 := rfl
  rw [bit] at h
  unfold magnitude ofMagnitude
  rw [bit]
  cases negative with
  | false =>
    rw [if_neg Bool.false_ne_true, Nat.add_zero, Nat.toUInt64_eq,
      UInt64.toNat_ofNat_of_lt' (by simp [UInt64.size]; omega)]
    exact Nat.mod_eq_of_lt h
  | true =>
    rw [if_pos rfl, Nat.toUInt64_eq, UInt64.toNat_ofNat_of_lt' (by simp [UInt64.size]; omega)]
    omega

/-- An integer that is not zero is rounded to neither zero nor anything beyond infinity. -/
theorem round_int_bounds {n : Nat} (positive : n ≠ 0) :
    0 < double.round n 1 ∧ double.round n 1 ≤ double.infinity := by
  have exponent : max ((n.log2 : Int) - double.fractionBits) double.minExponent =
      n.log2 - 52 := by
    simp only [double]
    omega
  have width : Nat.pow 2 double.fractionBits = 4503599627370496 := rfl
  have infinity : double.infinity = 9218868437227405312 := rfl
  have least : double.minExponent = -1074 := rfl
  rw [Format.round, if_neg (by simpa using positive), floorLog2_one positive]
  dsimp only
  rw [exponent, width, infinity, least]
  omega

theorem Double.isZero_ofRatio_one (negative : Bool) (n : Nat) :
    (ofRatio negative n 1).isZero = true ↔ n = 0 := by
  by_cases zero : n = 0
  · subst zero
    cases negative <;> decide
  · obtain ⟨positive, bounded⟩ := round_int_bounds zero
    have below : double.round n 1 < signBit := Nat.lt_of_le_of_lt bounded (by decide)
    rw [isZero, ofRatio, magnitude_ofMagnitude negative below, beq_iff_eq]
    omega

theorem Double.isZero_ofInt (n : Int) : (ofInt n).isZero = true ↔ n = 0 :=
  (isZero_ofRatio_one _ _).trans Int.natAbs_eq_zero

/-! ## Texts that spell integers -/

theorem isDigit_of_digitValue? {c : Char} {d : Nat} (h : digitValue? 10 c = some d) :
    c.isDigit = true := by
  unfold digitValue? at h
  split at h
  · rename_i range
    simpa [Char.isDigit, Char.le_def] using range
  · -- The letters stand for ten and more.
    split at h
    · simp at h
      omega
    · split at h
      · simp at h
        omega
      · cases h

theorem digits_of_readDigits {cs : List Char} {n : Nat} (h : readDigits 10 cs = some n) :
    cs ≠ [] ∧ ∀ c ∈ cs, c.isDigit = true := by
  obtain ⟨ds, read, -⟩ := Option.map_eq_some_iff.mp h
  unfold digitValues? at read
  split at read
  · cases read
  · rename_i some
    refine ⟨by simpa using some, fun c hc => ?_⟩
    obtain ⟨before, after, rfl⟩ := List.append_of_mem hc
    rw [List.mapM_append, List.mapM_cons] at read
    cases hd : digitValue? 10 c with
    | some d => exact isDigit_of_digitValue? hd
    | none =>
      rw [hd] at read
      cases hb : before.mapM (digitValue? 10) <;> rw [hb] at read <;> cases read

theorem isZero_ofDecimal (negative : Bool) (digits size : Nat) :
    (Double.ofDecimal negative digits size 0).isZero = true ↔ digits = 0 := by
  unfold Double.ofDecimal
  by_cases zero : digits = 0
  · rw [if_pos (by simp [zero]), zero]
    cases negative <;> decide
  · rw [if_neg (by simp [zero])]
    split
    · cases negative <;> simp [zero] <;> decide
    · exact (Double.isZero_ofRatio_one negative (digits * 1)).trans (by rw [Nat.mul_one])

/-- What starts with a digit is none of the words that stand for numbers. -/
theorem readMagnitude_digit (negative : Bool) {c : Char} (digit : c.isDigit = true)
    (rest : List Char) : readMagnitude negative (c :: rest) = readDecimal negative (c :: rest) := by
  have letters : ∀ c ∈ "0123456789".toList, c.toLower ≠ 'i' ∧ c.toLower ≠ 'n' :=
    List.all_iff_forall_prop.mp (by decide)
  obtain ⟨noI, noN⟩ := letters c (Token.mem_digits digit)
  rw [readMagnitude]
  simp [noI, noN]

/-- Digits alone are a decimal, which is zero if they spell zero. -/
theorem readMagnitude_of_readDigits (negative : Bool) {cs : List Char} {n : Nat}
    (h : readDigits 10 cs = some n) :
    ∃ x, readMagnitude negative cs = some x ∧ (x.isZero = true ↔ n = 0) := by
  obtain ⟨some, digits⟩ := digits_of_readDigits h
  have decimal : readDecimal negative cs =
      .some (.ofDecimal negative n (cs.dropWhile (· == '0')).length 0) := by
    rw [readDecimal, List.takeWhile_eq_self_iff.mpr digits, List.dropWhile_eq_nil_iff.mpr digits]
    simp only [List.append_nil, h]
    rfl
  obtain ⟨c, rest, rfl⟩ := List.exists_cons_of_ne_nil some
  exact ⟨_, (readMagnitude_digit negative (digits c List.mem_cons_self) rest).trans decimal,
    isZero_ofDecimal negative n _⟩

/-- A text that spells an integer spells a double too, and one is zero if the other is. -/
theorem readDouble_of_readInteger {cs : List Char} {n : Int} (h : readInteger 10 cs = some n) :
    ∃ x, readDouble cs = some x ∧ (x.isZero = true ↔ n = 0) := by
  unfold readInteger at h
  split at h
  · rename_i rest
    cases read : readDigits 10 rest with
    | none => simp [read] at h
    | some k =>
      obtain rfl : -(k : Int) = n := by simpa [read] using h
      obtain ⟨x, spells, zero⟩ := readMagnitude_of_readDigits true read
      exact ⟨x, spells, zero.trans (by omega)⟩
  · obtain ⟨k, read, rfl⟩ := Option.map_eq_some_iff.mp h
    obtain ⟨x, spells, zero⟩ := readMagnitude_of_readDigits false read
    exact ⟨x, spells, zero.trans Int.natCast_eq_zero.symm⟩
  · rename_i noMinus noPlus
    obtain ⟨k, read, rfl⟩ := Option.map_eq_some_iff.mp h
    obtain ⟨x, spells, zero⟩ := readMagnitude_of_readDigits false read
    refine ⟨x, ?_, zero.trans Int.natCast_eq_zero.symm⟩
    rw [readDouble.eq_def]
    split
    · exact absurd rfl (noMinus _)
    · exact absurd rfl (noPlus _)
    · exact spells

/-- The same of the integers and doubles that values are read as. -/
theorem readDouble_of_readInt32 {cs : List Char} {n : Int32} (h : readInt32 cs = some n) :
    ∃ x, readDouble cs = some x ∧ (x.isZero = true ↔ n = 0) := by
  obtain ⟨k, read, rfl⟩ := Option.map_eq_some_iff.mp h
  obtain ⟨read, fits⟩ := Option.filter_eq_some_iff.mp read
  obtain ⟨x, spells, zero⟩ := readDouble_of_readInteger read
  rw [Bool.and_eq_true, decide_eq_true_eq, decide_eq_true_eq] at fits
  refine ⟨x, spells, zero.trans ?_⟩
  rw [← Int32.toInt_inj, Int32.toInt_ofInt_of_le fits.1 (Int.lt_add_one_of_le fits.2)]
  rfl

end Number

namespace Value

open Number

/-! ## Divisors -/

theorem isFloaty_text (s : String) :
    (text s).isFloaty = ((readInt32? s).isNone && (readDouble? s).isSome) := rfl

/-- Of a value that does not make a result a float, the readings as a float and as an
integer are zero together. -/
theorem isZero_toDouble {v : Value} (whole : v.isFloaty = false) :
    v.toDouble.isZero = true ↔ v.toInt32 = 0 := by
  have void : Double.zero.isZero = true ↔ (0 : Int32) = 0 := by decide
  cases v with
  | int n => exact (Double.isZero_ofInt _).trans (Int32.toInt_inj (y := 0))
  | float x => cases whole
  | text s =>
    rw [isFloaty_text] at whole
    cases hi : readInt32? s with
    | none =>
      have none : readDouble? s = none := by simpa [hi] using whole
      rw [toDouble, toInt32, hi, none]
      exact void
    | some n =>
      obtain ⟨x, spells, zero⟩ := readDouble_of_readInt32 hi
      rw [toDouble, toInt32, hi, readDouble?, spells]
      exact zero
  | _ => exact void

theorem quotient?_eq_none_iff {a b : Value} :
    a.quotient? b = none ↔ b.toDouble.isZero = true := by
  unfold quotient?
  split
  · simp [*]
  · split <;> simp [*]

theorem remainder?_eq_none_iff {a b : Value} :
    a.remainder? b = none ↔ b.toDouble.isZero = true := by
  unfold remainder?
  split
  · split <;> simp [*]
  · rename_i whole
    have whole : b.isFloaty = false := by simp at whole; exact whole.2
    rw [isZero_toDouble whole]
    split <;> simp_all

/-- A quotient that is an integer is that of the operands as integers, and its divisor is not
zero. -/
theorem quotient?_int {a b : Value} {n : Int32} (h : a.quotient? b = some (.int n)) :
    b.toInt32 ≠ 0 ∧ n = a.toInt32 / b.toInt32 := by
  unfold quotient? at h
  split at h
  · cases h
  · rename_i divisor
    split at h
    · cases h
    · rename_i whole
      have whole : b.isFloaty = false := by simp at whole; exact whole.2
      exact ⟨fun zero => divisor ((isZero_toDouble whole).mpr zero),
        (Value.int.inj (Option.some.inj h)).symm⟩

/-- The same of remainders. -/
theorem remainder?_int {a b : Value} {n : Int32} (h : a.remainder? b = some (.int n)) :
    b.toInt32 ≠ 0 ∧ n = a.toInt32 % b.toInt32 := by
  unfold remainder? at h
  split at h
  · split at h <;> cases h
  · split at h
    · cases h
    · rename_i divisor
      exact ⟨by simpa using divisor, (Value.int.inj (Option.some.inj h)).symm⟩

end Value

/-- The quotient and the remainder of integers make up the dividend. -/
theorem div_mul_add_mod (x y : Int32) : x / y * y + x % y = x := by
  rw [← Int32.toInt_inj, Int32.toInt_add, Int32.toInt_mul, Int32.toInt_div, Int32.toInt_mod,
    Int.bmod_mul_bmod, Int.bmod_add_bmod, Int.mul_comm, Int.mul_tdiv_add_tmod,
    ← Int32.toInt_ofInt, Int32.ofInt_toInt]

/-! ## The operations -/

theorem Memory.combine_ints (op : ArithOp) (x y : Int32) (m : Memory) :
    Memory.combine op (.int x) (.int y) m = (.int (op.ints x y), m) := by
  obtain ⟨n, levels⟩ : ∃ n, 2 * m.levels = n + 1 := ⟨2 * m.levels - 1, by unfold levels; omega⟩
  have scalar : Memory.combineTo op (2 * m.levels) (.int x) (.int y) m =
      (.int (op.ints x y), m) := by
    rw [levels]
    rfl
  exact scalar

/-- For operands of every kind there is a quotient if there is a remainder. Either is an
integer only where the divisor as an integer is not zero. The quotient of integers, times
the divisor, plus the remainder is the dividend. -/
theorem division_agrees (a b : Value) :
    (a.quotient? b = none ↔ a.remainder? b = none) ∧
    (∀ n, a.quotient? b = some (.int n) → b.toInt32 ≠ 0 ∧ n = a.toInt32 / b.toInt32) ∧
    (∀ n, a.remainder? b = some (.int n) → b.toInt32 ≠ 0 ∧ n = a.toInt32 % b.toInt32) ∧
    ∀ x y : Int32, a = .int x → b = .int y → y ≠ 0 →
      ∃ q r, a.quotient? b = some q ∧ a.remainder? b = some r ∧ ∀ m : Memory,
        (Memory.combine .mul q b >>= fun p => Memory.combine .add p r) m = (a, m) := by
  refine ⟨Value.quotient?_eq_none_iff.trans Value.remainder?_eq_none_iff.symm,
    fun n => Value.quotient?_int, fun n => Value.remainder?_int, ?_⟩
  rintro x y rfl rfl divisor
  have nonzero : (Value.int y).toDouble.isZero = false :=
    Bool.eq_false_iff.mpr fun zero => divisor ((Value.isZero_toDouble rfl).mp zero)
  have quotient : (Value.int x).quotient? (.int y) = some (.int (x / y)) := by
    rw [Value.quotient?, nonzero]
    rfl
  have remainder : (Value.int x).remainder? (.int y) = some (.int (x % y)) := by
    have divisor : (y == 0) = false := beq_false_of_ne divisor
    simp only [Value.remainder?, Value.isFloaty, Value.toInt32, divisor]
    rfl
  refine ⟨_, _, quotient, remainder, fun m => ?_⟩
  have product := Memory.combine_ints .mul (x / y) y m
  have sum := Memory.combine_ints .add (x / y * y) (x % y) m
  rw [ArithOp.ints, div_mul_add_mod] at sum
  show Memory.combine .add (Memory.combine .mul (.int (x / y)) (.int y) m).1 (.int (x % y))
    (Memory.combine .mul (.int (x / y)) (.int y) m).2 = (.int x, m)
  rw [product]
  exact sum

/-- The least integer divided by -1 wraps to itself and leaves nothing. -/
theorem least_divided : ∃ q r,
    (Value.int (-2147483648)).quotient? (.int (-1)) = some q ∧
    (Value.int (-2147483648)).remainder? (.int (-1)) = some r ∧ ∀ m : Memory,
      (Memory.combine .mul q (.int (-1)) >>= fun p => Memory.combine .add p r) m =
        (.int (-2147483648), m) :=
  (division_agrees _ _).2.2.2 _ _ rfl rfl (by decide)

/-- A text that spells zero divides no more than the integer does. -/
example : (Value.int 7).quotient? (.text " -0 ") = none := by decide

end Lingo
