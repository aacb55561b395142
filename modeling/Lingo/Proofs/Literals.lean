import Lingo.Proofs.Division

/-!
# Literals that are the same

A literal is looked up by a sameness of its own, which compares floats as numbers.

* `Double.isNaN_of_tokenize`: no float in a text is a NaN, which would not be the same as
  itself;
* `Double.eq_of_rank`: other numbers than zero are told apart by their position;
* `Literal.same_trans`, `Literal.same_zero`, `Literal.eq_of_same`: what follows for literals.
-/

namespace Lingo

/-! ## Floats that are written -/

namespace Number

theorem Format.round_le (f : Format) (n d : Nat) : f.round n d ≤ f.infinity := by
  unfold Format.round
  split
  · exact Nat.zero_le _
  · exact Nat.min_le_left _ _

namespace Double

variable {x y : Double}

theorem isNaN_ofMagnitude (negative : Bool) {m : Nat} (h : m ≤ double.infinity) :
    (ofMagnitude negative m).isNaN = false := by
  rw [isNaN, magnitude_ofMagnitude negative (Nat.lt_of_le_of_lt h (by decide))]
  exact decide_eq_false (Nat.not_lt.mpr h)

theorem isNaN_ofDecimal (negative : Bool) (digits size : Nat) (exponent : Int) :
    (ofDecimal negative digits size exponent).isNaN = false := by
  unfold ofDecimal
  split
  · exact isNaN_ofMagnitude negative (Nat.zero_le _)
  · split
    · exact isNaN_ofMagnitude negative (Nat.le_refl _)
    · exact isNaN_ofMagnitude negative (Format.round_le _ _ _)

theorem isNaN_of_readDecimal {negative : Bool} {cs : List Char}
    (h : readDecimal negative cs = some x) : x.isNaN = false := by
  unfold readDecimal at h
  dsimp only at h
  split at h
  · cases h
    exact isNaN_ofDecimal _ _ _ _
  · cases h

/-- A word that is a number starts with a digit, and so does not spell a NaN. -/
theorem isNaN_of_number {w : List Char} (starts : Token.startsNumber w = true)
    (h : Token.number w = .ok (.float x)) : x.isNaN = false := by
  have read : readDouble w = some x := by
    unfold Token.number at h
    dsimp only at h
    split at h
    · split at h <;> cases h
    · split at h
      · cases h
      · split at h
        · cases h
          assumption
        · cases h
  unfold Token.startsNumber at starts
  split at starts
  · rw [readDouble, readMagnitude_digit true starts] at read
    exact isNaN_of_readDecimal read
  · rename_i c rest noMinus
    have unsigned : readDouble (c :: rest) = readMagnitude false (c :: rest) := by
      rw [readDouble.eq_def]
      split
      · rename_i same
        cases same
        cases starts
      · rename_i same
        cases same
        cases starts
      · rfl
    rw [unsigned, readMagnitude_digit false starts] at read
    exact isNaN_of_readDecimal read
  · cases starts

theorem isNaN_of_tokenize {cs : List Char} {ts : List Token} (h : Token.tokenize cs = .ok ts) :
    ∀ x, .float x ∈ ts → x.isNaN = false := by
  have numbers : ∀ t ∈ ts, ∀ x, t = .float x → x.isNaN = false := by
    refine Token.forall_of_tokenize (fun _ _ same => by cases same) (fun {w t} _ ht x same => ?_) h
    subst same
    unfold Token.classify at ht
    split at ht
    · cases ht
    · split at ht <;> cases ht
    · split at ht
      · cases ht
      · split at ht
        · rename_i starts
          exact isNaN_of_number starts ht
        · cases ht
  exact fun x hx => numbers _ hx x rfl

/-! ## Floats that are the same -/

theorem sameNumber_iff :
    x.sameNumber y = true ↔ x.isNaN = false ∧ y.isNaN = false ∧ x.rank = y.rank := by
  unfold sameNumber compare?
  cases x.isNaN <;> cases y.isNaN <;> simp

theorem isNaN_of_isZero (h : x.isZero = true) : x.isNaN = false := by
  rw [isNaN, beq_iff_eq.mp h]
  rfl

theorem rank_eq_zero_iff : x.rank = 0 ↔ x.isZero = true := by
  unfold rank isZero
  rw [beq_iff_eq]
  split <;> omega

theorem toNat_bits (x : Double) :
    x.bits.toNat = x.magnitude + if x.negative then signBit else 0 := by
  have bound : x.bits.toNat < 18446744073709551616 := x.bits.toNat_lt
  have bit : signBit = 9223372036854775808 := rfl
  unfold magnitude negative
  rw [bit]
  split
  · rename_i set
    rw [decide_eq_true_eq] at set
    omega
  · rename_i unset
    rw [decide_eq_true_eq] at unset
    omega

/-- Numbers are told apart by their position, except for the zeros. -/
theorem eq_of_rank (h : x.rank = y.rank) (nonzero : x.isZero = false) : x = y := by
  have other : x.magnitude ≠ 0 := by simpa [isZero] using nonzero
  have bits : x.bits.toNat = y.bits.toNat := by
    rw [toNat_bits x, toNat_bits y]
    unfold rank at h
    cases signX : x.negative <;> cases signY : y.negative <;> rw [signX, signY] at h <;>
      simp only [if_true, if_false, Bool.false_eq_true] at h ⊢ <;> omega
  cases x
  cases y
  exact congrArg _ (UInt64.toNat_inj.mp bits)

end Double

end Number

namespace Literal

open Number (Double)

variable {x y z : Literal}

/-- One of the two zeros. -/
def isZero : Literal → Bool
  | .float x => x.isZero
  | _ => false

theorem same_trans (h : x.same y = true) (h' : y.same z = true) : x.same z = true := by
  cases y with
  | text t =>
    cases x with
    | text s =>
      obtain rfl : s = t := beq_iff_eq.mp h
      exact h'
    | _ => cases h
  | int n =>
    cases x with
    | int k =>
      obtain rfl : k = n := beq_iff_eq.mp h
      exact h'
    | _ => cases h
  | float b =>
    cases x with
    | float a =>
      cases z with
      | float c =>
        obtain ⟨numberA, -, eq⟩ := Double.sameNumber_iff.mp h
        obtain ⟨-, numberC, eq'⟩ := Double.sameNumber_iff.mp h'
        exact Double.sameNumber_iff.mpr ⟨numberA, numberC, eq.trans eq'⟩
      | _ => cases h'
    | _ => cases h

/-- Only zeros are the same as a zero. -/
theorem same_zero (h : x.isZero = true) (y : Literal) : y.same x = y.isZero := by
  cases x with
  | float x =>
    cases y with
    | float y =>
      rw [Bool.eq_iff_iff]
      constructor
      · intro same
        obtain ⟨-, -, eq⟩ := Double.sameNumber_iff.mp same
        exact Double.rank_eq_zero_iff.mp (eq.trans (Double.rank_eq_zero_iff.mpr h))
      · intro zero
        have ranks : y.rank = x.rank :=
          (Double.rank_eq_zero_iff.mpr zero).trans
            (Double.rank_eq_zero_iff.mpr h).symm
        exact Double.sameNumber_iff.mpr ⟨Double.isNaN_of_isZero zero,
          Double.isNaN_of_isZero h, ranks⟩
    | _ => rfl
  | _ => cases h

/-- Nothing else is the same without being equal. -/
theorem eq_of_same (h : y.same x = true) (nonzero : x.isZero = false) : y = x := by
  cases x with
  | text s =>
    cases y with
    | text t => exact congrArg text (beq_iff_eq.mp h)
    | _ => cases h
  | int n =>
    cases y with
    | int k => exact congrArg int (beq_iff_eq.mp h)
    | _ => cases h
  | float a =>
    cases y with
    | float b =>
      obtain ⟨-, -, eq⟩ := Double.sameNumber_iff.mp h
      exact congrArg float (Double.eq_of_rank eq.symm nonzero).symm
    | _ => cases h

end Literal

end Lingo
