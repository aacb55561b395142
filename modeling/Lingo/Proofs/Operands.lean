import Lingo.Proofs.Listable

/-!
# Operands in the style of listings

An operand is written as listings write it (`Style.operand`) if jumps, and only
they, take labels, operations on names, and only they, take `#name`, floats are
finite, and scaled slots do not overflow. What is read of such an operand can be
written again: `operand_styled` says what it adds to the names of the library and
to the literals of the script, and that both stay in order of first use.
-/

namespace Lingo

open Number

/-! ## Style -/

def Token.isLabel : Token → Bool
  | .label _ => true
  | _ => false

def Token.isSymbol : Token → Bool
  | .symbol _ => true
  | _ => false

/-- Whether a string can be quoted so that it is read back. -/
def Token.isQuotable : Token → Bool
  | .string s => s.toList.all Token.printable
  | _ => true

namespace Style

/-- Whether a float is finite, and also as a single where a single is wanted. -/
def float (op : Opcode) : Token → Bool
  | .float x =>
    x.magnitude < double.infinity &&
      (op != .pushFloat32 || (Single.ofDouble x).magnitude < single.infinity)
  | _ => true

/-- Whether a slot can be scaled without overflow. -/
def slot (scale n : Int32) : Bool :=
  Int32.minValue.toInt ≤ n.toInt * scale.toInt && n.toInt * scale.toInt ≤ Int32.maxValue.toInt

/-- Whether an operand is written as in a listing. -/
def operand (lib : Library) (h : OpenHandler) (line : Nat) (op : Opcode) (token : Token) : Bool :=
  token.isLabel == op.isJump && token.isSymbol == op.takesName &&
    float op token &&
    (!op.takesSlot ||
      match Assembly.variableSlot line h op token with
      | .ok n => slot lib.slotScale n
      | .error _ => true)

end Style

/-! ## Short floats -/

theorem roundDiv_le (n d : Nat) : roundDiv n d ≤ n / d + 1 := by
  unfold roundDiv
  dsimp only
  split <;> omega

theorem floorLog2_one {n : Nat} (positive : n ≠ 0) : floorLog2 n 1 = n.log2 := by
  have one : Nat.log2 1 = 0 := by decide
  have below : 1 * Nat.pow 2 n.log2 ≤ n * 1 := by
    rw [Nat.one_mul, Nat.mul_one]
    exact Nat.log2_self_le positive
  rw [floorLog2, one]
  simp only [Int.natCast_zero, Int.sub_zero, Int.toNat_natCast]
  rw [show (-(n.log2 : Int)).toNat = 0 by omega]
  exact if_pos below

/-- An integer of 64 bits is no infinity as a single. -/
theorem round_int_lt {n : Nat} (h : n ≤ 9223372036854775808) :
    single.round n 1 < single.infinity := by
  by_cases zero : n = 0
  · subst zero
    decide
  have log : n.log2 < 64 := (Nat.log2_lt zero).mpr (by omega)
  have above : n < 2 ^ (n.log2 + 1) := Nat.lt_log2_self
  have quotient : ∀ e : Int, e = n.log2 - 23 →
      roundDiv (n * Nat.pow 2 (-e).toNat) (1 * Nat.pow 2 e.toNat) ≤ 16777217 := by
    rintro e rfl
    refine Nat.le_trans (roundDiv_le _ _) (Nat.succ_le_succ ?_)
    rcases Nat.le_total n.log2 23 with small | large
    · rw [show ((n.log2 : Int) - 23).toNat = 0 by omega,
        show (-((n.log2 : Int) - 23)).toNat = 23 - n.log2 by omega]
      have scaled : n * 2 ^ (23 - n.log2) < 2 ^ (n.log2 + 1) * 2 ^ (23 - n.log2) :=
        Nat.mul_lt_mul_of_pos_right above (Nat.two_pow_pos _)
      rw [← Nat.pow_add, show n.log2 + 1 + (23 - n.log2) = 24 by omega] at scaled
      rw [show 1 * Nat.pow 2 0 = 1 from rfl, Nat.div_one]
      exact Nat.le_of_lt scaled
    · rw [show ((n.log2 : Int) - 23).toNat = n.log2 - 23 by omega,
        show (-((n.log2 : Int) - 23)).toNat = 0 by omega, Nat.one_mul]
      refine Nat.le_of_lt (Nat.div_lt_of_lt_mul ?_)
      rw [show n * Nat.pow 2 0 = n from Nat.mul_one n]
      have split : 2 ^ (n.log2 + 1) = 2 ^ (n.log2 - 23) * 16777216 := by
        rw [show 16777216 = 2 ^ 24 from rfl, ← Nat.pow_add]
        congr 1
        omega
      rw [split] at above
      exact above
  have exponent : max (floorLog2 n 1 - single.fractionBits) single.minExponent = n.log2 - 23 := by
    rw [floorLog2_one zero]
    simp only [single]
    omega
  have bound := quotient _ rfl
  rw [Format.round, if_neg (by simpa using zero)]
  simp only [exponent]
  refine Nat.lt_of_le_of_lt (Nat.min_le_right _ _) ?_
  have width : Nat.pow 2 single.fractionBits = 8388608 := rfl
  have infinity : single.infinity = 2139095040 := rfl
  have least : single.minExponent = -149 := rfl
  rw [width, infinity, least]
  omega

theorem magnitude_ofMagnitude (negative : Bool) {m : Nat} (h : m < Single.signBit) :
    (Single.ofMagnitude negative m).magnitude = m := by
  have bit : Single.signBit = 2147483648 := rfl
  rw [bit] at h
  unfold Single.magnitude Single.ofMagnitude
  rw [bit]
  cases negative with
  | false =>
    rw [if_neg Bool.false_ne_true, Nat.add_zero, Nat.toUInt32_eq, UInt32.toNat_ofNat_of_lt' (by simp [UInt32.size]; omega)]
    exact Nat.mod_eq_of_lt h
  | true =>
    rw [if_pos rfl, Nat.toUInt32_eq, UInt32.toNat_ofNat_of_lt' (by simp [UInt32.size]; omega)]
    omega

theorem finite_ofInt {n : Int} (h : n.natAbs ≤ 9223372036854775808) :
    (Single.ofInt n).magnitude < single.infinity := by
  have lt := round_int_lt h
  rw [Single.ofInt, magnitude_ofMagnitude]
  · exact lt
  · exact Nat.lt_trans lt (by decide)

/-! ## Slots -/

/-- A slot that was scaled without overflow is what its scaled form stands
for. -/
theorem slot_scaled {scale n : Int32} (positive : 0 < scale.toInt) (h : Style.slot scale n = true) :
    n * scale / scale * scale = n * scale := by
  rw [Style.slot, Bool.and_eq_true, decide_eq_true_eq, decide_eq_true_eq] at h
  obtain ⟨low, high⟩ := h
  have bounds : Int32.minValue.toInt = -2147483648 ∧ Int32.maxValue.toInt = 2147483647 := by decide
  have product : (n * scale).toInt = n.toInt * scale.toInt := by
    rw [Int32.toInt_mul, Int.bmod_eq_of_le (by omega) (by omega)]
  have quotient : n * scale / scale = n := by
    apply Int32.toInt_inj.mp
    have least := n.le_toInt
    have most := n.toInt_lt
    rw [Int32.toInt_div, product, Int.mul_tdiv_cancel _ (by omega),
      Int.bmod_eq_of_le (by omega) (by omega)]
  rw [quotient]
theorem slotScale_pos (lib : Library) : 0 < lib.slotScale.toInt := by
  unfold Library.slotScale
  repeat' split
  all_goals decide

/-! ## Literals -/

/-- A script with one more mention of a literal, which is new or not. -/
theorem Script.Listable.intern {names : Names} {scale : Int32} {pending : List Int32} {s : Script}
    (h : s.Listable names scale pending) {x : Literal} (hx : x.Writable) :
    { s with literals := (Assembly.internLiteral s.literals x).2 }.Listable names scale
      (pending ++ [(Assembly.internLiteral s.literals x).1]) := by
  rw [internLiteral_eq]
  refine ⟨h.kind, h.name, h.properties, distinct_enter h.distinct, fun y hy => ?_, ?_, h.handlers⟩
  · rcases mem_enter (List.mem_toArray.mp hy) with hy | rfl
    · exact h.literals y (Array.mem_toList_iff.mp hy)
    · exact hx
  · have more := firstUse_enter Literal.same s.literals.toList x
    rw [Array.length_toList] at more
    have all := firstUse_append.mpr ⟨_, h.uses, more⟩
    rw [List.append_assoc] at all
    exact all

/-! ## What is read -/

/-- The number that an instruction as written mentions. -/
def Pending.mentioned (mentions : Opcode → Bool) (p : Pending) : Option Int32 :=
  Layout.mentioned mentions (p.opcode, Layout.resolve [] p.operand)

/-- An instruction as written that can be written again. -/
def Pending.Writable (scale : Int32) (p : Pending) : Prop :=
  match p.operand with
  | .label _ => p.opcode.isJump = true
  | .value n => (Layout.Resolved.value n).Writable p.opcode 0 scale
  | .absent => p.opcode ≠ .invalid ∧ p.opcode.takesArgument = false

/-- What an instruction in the style of listings adds. -/
structure Pending.Styled (scale : Int32) (names names' : Names) (s s' : Script) (p : Pending) :
    Prop where
  writable : p.Writable scale
  names : ∃ added, (∀ name ∈ added, ∀ c ∈ name.toList, Token.endsWord c = false) ∧
    names.Interned added (p.mentioned Opcode.takesName).toList names'
  literals : ∀ names scale pending, s.Listable names scale pending →
    s'.Listable names scale (pending ++ (p.mentioned (· == .pushCons)).toList)

section

variable {scale : Int32} {names : Names} {s : Script} {line : Nat} {op : Opcode}

theorem Pending.mentioned_value (mentions : Opcode → Bool) (n : Int32) :
    Pending.mentioned mentions ⟨line, op, .value n⟩ = if mentions op then some n else none :=
  rfl

/-- An operand that mentions nothing. -/
theorem Pending.Styled.silent {operand : Operand}
    (writable : Pending.Writable scale ⟨line, op, operand⟩)
    (noName : Pending.mentioned Opcode.takesName ⟨line, op, operand⟩ = none)
    (noLiteral : Pending.mentioned (· == .pushCons) ⟨line, op, operand⟩ = none) :
    Pending.Styled scale names names s s ⟨line, op, operand⟩ where
  writable := writable
  names := ⟨[], fun _ h => absurd h List.not_mem_nil, by rw [noName]; exact .nil names⟩
  literals := by
    intro names scale pending h
    rw [noLiteral, Option.toList_none, List.append_nil]
    exact h

/-- A number as operand of an operation that mentions nothing. -/
theorem Pending.Styled.number {n : Int32}
    (writable : (Layout.Resolved.value n).Writable op 0 scale) (noName : op.takesName = false)
    (noCons : op ≠ .pushCons) : Pending.Styled scale names names s s ⟨line, op, .value n⟩ := by
  refine .silent writable ?_ ?_
  · exact if_neg (by rw [noName]; exact Bool.false_ne_true)
  · exact if_neg (by simpa using noCons)

/-- A name as operand. -/
theorem Pending.Styled.name {symbol : String} (valid : op ≠ .invalid)
    (takes : op.takesArgument = true) (takesName : op.takesName = true)
    (whole : ∀ c ∈ symbol.toList, Token.endsWord c = false) :
    Pending.Styled scale names (names.intern symbol).2 s s
      ⟨line, op, .value (names.intern symbol).1⟩ := by
  obtain ⟨noSlot, noCons, noFloat⟩ := plain_of_takesName takesName
  have noJump : op.isJump = false := by
    cases jump : op.isJump with
    | false => rfl
    | true => exact takesName.symm.trans (plain_of_isJump jump).1
  refine ⟨⟨valid, noJump, fun no => ?_, fun yes => ?_, fun yes => absurd yes noFloat⟩,
    ⟨[symbol], fun other hother => ?_, ?_⟩, fun names scale pending hs => ?_⟩
  · exact absurd (no.symm.trans takes) Bool.false_ne_true
  · exact absurd (noSlot.symm.trans yes) Bool.false_ne_true
  · rw [List.mem_singleton.mp hother]
    exact whole
  · rw [Pending.mentioned_value, if_pos takesName]
    exact Names.interned_intern names symbol
  · rw [Pending.mentioned_value, if_neg (by simpa using noCons), Option.toList_none,
      List.append_nil]
    exact hs

/-- A literal as operand of a push. -/
theorem Pending.Styled.literal {x : Literal} (hx : x.Writable) :
    Pending.Styled scale names names s
      { s with literals := (Assembly.internLiteral s.literals x).2 }
      ⟨line, .pushCons, .value (Assembly.internLiteral s.literals x).1⟩ where
  writable := ⟨nofun, rfl, nofun, nofun, nofun⟩
  names := ⟨[], fun _ h => absurd h List.not_mem_nil, .nil names⟩
  literals := fun _ _ _ h => h.intern hx

end

theorem literalOperand?_writable {line : Nat} {op : Opcode} {token : Token}
    {result : AsmResult Literal} {x : Literal}
    (h : Assembly.literalOperand? line token = some result) (hx : result = .ok x)
    (quotable : token.isQuotable = true)
    (float : Style.float op token = true) : x.Writable := by
  subst hx
  cases token with
  | string s =>
    cases h
    exact List.all_eq_true.mp quotable
  | float y =>
    cases h
    rw [Style.float, Bool.and_eq_true, decide_eq_true_eq] at float
    exact float.1
  | int n =>
    have mapped := Option.some.inj h
    cases hn : Assembly.intOperand line (.int n) with
    | error e =>
      rw [hn] at mapped
      cases mapped
    | ok m =>
      rw [hn] at mapped
      cases mapped
      trivial
  | _ => cases h

theorem singleOperand?_finite {token : Token} {x : Single}
    (h : Assembly.singleOperand? token = some x) (found : token.Found)
    (float : Style.float .pushFloat32 token = true) : x.magnitude < single.infinity := by
  cases token with
  | float y =>
    cases h
    rw [Style.float, Bool.and_eq_true] at float
    exact of_decide_eq_true float.2
  | int n =>
    cases h
    exact finite_ofInt found
  | _ => cases h

/-- An operand in the style of listings can be written again. -/
theorem operand_styled {lib lib' : Library} {s s' : OpenScript} {h : OpenHandler} {line : Nat}
    {op : Opcode} {token : Token} {operand : Operand}
    (ho : Assembly.operand lib s h line op token = .ok (operand, lib', s'))
    (styled : Style.operand lib h line op token = true) (found : token.Found)
    (quotable : token.isQuotable = true) (valid : op ≠ .invalid)
    (takes : op.takesArgument = true) :
    Pending.Styled lib.slotScale lib.names lib'.names s.script s'.script ⟨line, op, operand⟩ := by
  simp only [Style.operand, Bool.and_eq_true, beq_iff_eq] at styled
  obtain ⟨⟨⟨jump, name⟩, float⟩, slot⟩ := styled
  have needed : op.takesArgument = false → ∀ n : Int32, n = 0 := fun no =>
    absurd (no.symm.trans takes) Bool.false_ne_true
  unfold Assembly.operand at ho
  split at ho
  · cases ho
    exact .silent jump.symm rfl rfl
  · rename_i symbol
    cases ho
    exact .name valid takes name.symm found
  · rename_i noLabel noSymbol
    have noJump : op.isJump = false := by
      rw [← jump]
      cases token <;> first | rfl | exact absurd rfl (noLabel _)
    have noName : op.takesName = false := by
      rw [← name]
      cases token <;> first | rfl | exact absurd rfl (noSymbol _)
    have slots : op.takesSlot = true → ∀ n, Assembly.variableSlot line h op token = .ok n →
        Pending.Styled lib.slotScale lib.names lib.names s.script s.script
          ⟨line, op, .value (n * lib.slotScale)⟩ := by
      intro takesSlot n hn
      obtain ⟨noCons, noFloat⟩ := plain_of_takesSlot takesSlot
      rw [takesSlot, hn] at slot
      exact .number ⟨valid, noJump, fun no => needed no _,
        fun _ => slot_scaled (slotScale_pos lib) slot, fun yes => absurd yes noFloat⟩ noName noCons
    split at ho
    · split at ho
      · rename_i literal hl
        obtain ⟨x, hx, ho⟩ := bind_eq_ok.mp ho
        cases ho
        exact .literal (literalOperand?_writable hl hx quotable float)
      · cases ho
    · split at ho
      · rename_i x hx
        cases ho
        have finite := singleOperand?_finite hx found float
        exact .number ⟨valid, noJump, fun no => needed no _, nofun, fun _ => finite⟩ noName nofun
      · cases ho
    all_goals
      obtain ⟨n, hn, ho⟩ := bind_eq_ok.mp ho
      cases ho
    · exact slots rfl n hn
    · exact slots rfl n hn
    · exact slots rfl n hn
    · exact slots rfl n hn
    · rename_i noCons noFloat noGetParam noSetParam noGetLocal noSetLocal
      have noSlot := takesSlot_eq_false noGetParam noSetParam noGetLocal noSetLocal
      exact .number ⟨valid, noJump, fun no => needed no _,
        fun yes => absurd (noSlot.symm.trans yes) Bool.false_ne_true,
        fun yes => absurd yes noFloat⟩ noName noCons

end Lingo
