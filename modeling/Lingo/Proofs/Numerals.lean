import Mathlib.Data.Char
import Mathlib.Data.List.Monad
import Mathlib.Data.Nat.Digits.Defs
import Lingo.Proofs.Lexing

/-!
# Integers among words

Which words are integers, told by a grammar: an optional minus sign and decimal
digits, or an optional minus sign, `0x` or `0X` and hexadecimal digits
(`IntegerWord`). What follows the mark `0x` is read with a sign of its own, so
that some more words are integers (`ResignedWord`), and in one case the sign in front
leads out of the 64 bits (`OverflowingWord`).

* `readDigits_decimal`, `readDigits_hexadecimal`: digits are read as the number
  that they spell;
* `IntegerWord.classify`, `ResignedWord.classify`: both kinds of words are integers;
* `OverflowingWord.classify`: what wraps around;
* `integer_tokens`: a word is an integer exactly if it is one of these; every other
  word that starts like a number is a float or refused, and all others are names.
-/

namespace Lingo.Token

open Number

/-! ## Digits -/

/-- The digits of hexadecimal numbers, in either case. -/
def isHexDigit (c : Char) : Bool :=
  c.isDigit || ('A' ≤ c && c ≤ 'F') || ('a' ≤ c && c ≤ 'f')

/-- What a digit counts. -/
def digitWorth (c : Char) : Nat :=
  if c ≤ '9' then c.toNat - '0'.toNat
  else if c ≤ 'F' then c.toNat - 'A'.toNat + 10
  else c.toNat - 'a'.toNat + 10

/-- The number that digits spell in a radix. -/
def spelled (radix : Nat) (digits : List Char) : Nat :=
  Nat.ofDigits radix (digits.map digitWorth).reverse

theorem horner_eq_ofDigits (radix : Nat) (ds : List Nat) :
    horner radix ds = Nat.ofDigits radix ds := by
  induction ds with
  | nil => rfl
  | cons d ds ih => simp [horner, ih, Nat.ofDigits_cons]

theorem char_le_iff {c d : Char} : c ≤ d ↔ c.toNat ≤ d.toNat :=
  Iff.rfl

theorem isDigit_iff {c : Char} : c.isDigit = true ↔ 48 ≤ c.toNat ∧ c.toNat ≤ 57 := by
  simp [Char.isDigit, UInt32.le_iff_toNat_le]

theorem isHexDigit_iff {c : Char} : isHexDigit c = true ↔
    48 ≤ c.toNat ∧ c.toNat ≤ 57 ∨ 65 ≤ c.toNat ∧ c.toNat ≤ 70 ∨ 97 ≤ c.toNat ∧ c.toNat ≤ 102 := by
  simp [isHexDigit, isDigit_iff, char_le_iff, or_assoc]

/-- A digit as it is read, for either radix. -/
theorem digitValue?_eq {radix : Nat} {isDigit : Char → Bool} (c : Char)
    (digits : isDigit c = true ↔
      48 ≤ c.toNat ∧ c.toNat ≤ 57 ∨
        radix = 16 ∧ (65 ≤ c.toNat ∧ c.toNat ≤ 70 ∨ 97 ≤ c.toNat ∧ c.toNat ≤ 102))
    (radices : radix = 10 ∨ radix = 16) :
    digitValue? radix c = if isDigit c then some (digitWorth c) else none := by
  simp only [digitValue?, digitWorth, digits, char_le_iff, Bool.and_eq_true, decide_eq_true_eq,
    Char.reduceToNat]
  split_ifs <;> simp <;> omega

theorem digitValue?_decimal (c : Char) :
    digitValue? 10 c = if c.isDigit then some (digitWorth c) else none :=
  digitValue?_eq c (by simp [isDigit_iff]) (.inl rfl)

theorem digitValue?_hexadecimal (c : Char) :
    digitValue? 16 c = if isHexDigit c then some (digitWorth c) else none :=
  digitValue?_eq c (by simp [isHexDigit_iff]) (.inr rfl)

section

variable {radix : Nat} {isDigit : Char → Bool}
  (values : ∀ c, digitValue? radix c = if isDigit c then some (digitWorth c) else none)
include values

theorem mapM_digitValue? (cs : List Char) :
    cs.mapM (digitValue? radix) = if cs.all isDigit then some (cs.map digitWorth) else none := by
  induction cs with
  | nil => rfl
  | cons c cs ih =>
    rw [List.mapM_cons, values, ih]
    cases hc : isDigit c <;> cases hcs : cs.all isDigit <;> simp [hc, hcs]

/-- Digits are read as the number that they spell, and nothing else is read. -/
theorem readDigits_eq_some_iff {cs : List Char} {n : Nat} :
    readDigits radix cs = some n ↔
      cs ≠ [] ∧ (∀ c ∈ cs, isDigit c = true) ∧ n = spelled radix cs := by
  rw [readDigits, digitValues?, mapM_digitValue? values, Option.map_eq_some_iff]
  cases cs with
  | nil => simp
  | cons c cs =>
    simp only [List.isEmpty_cons, Bool.false_eq_true, if_false, ofDigits_eq_horner,
      horner_eq_ofDigits, spelled, ← List.all_eq_true]
    split <;> simp_all [@eq_comm _ n]

end

theorem readDigits_decimal {cs : List Char} {n : Nat} :
    readDigits 10 cs = some n ↔
      cs ≠ [] ∧ (∀ c ∈ cs, c.isDigit = true) ∧ n = spelled 10 cs :=
  readDigits_eq_some_iff digitValue?_decimal

theorem readDigits_hexadecimal {cs : List Char} {n : Nat} :
    readDigits 16 cs = some n ↔
      cs ≠ [] ∧ (∀ c ∈ cs, isHexDigit c = true) ∧ n = spelled 16 cs :=
  readDigits_eq_some_iff digitValue?_hexadecimal

/-! ## The grammar of integers -/

/-- A number with a minus sign before it or without. -/
def signedNumber (negative : Bool) (n : Int) : Int :=
  if negative then -n else n

/-- Integers as they are documented, with their values: decimal numbers within 64
bits, and hexadecimal ones whose magnitude is. -/
inductive IntegerWord : List Char → Int → Prop
  | decimal (negative : Bool) {digits : List Char} (some : digits ≠ [])
      (all : ∀ c ∈ digits, c.isDigit = true)
      (low : Int64.minValue.toInt ≤ signedNumber negative (spelled 10 digits))
      (high : signedNumber negative (spelled 10 digits) ≤ Int64.maxValue.toInt) :
      IntegerWord (signed negative digits) (signedNumber negative (spelled 10 digits))
  | hexadecimal (negative : Bool) {x : Char} (mark : x = 'x' ∨ x = 'X') {digits : List Char}
      (some : digits ≠ []) (all : ∀ c ∈ digits, isHexDigit c = true)
      (high : (spelled 16 digits : Int) ≤ Int64.maxValue.toInt) :
      IntegerWord (signed negative ('0' :: x :: digits))
        (signedNumber negative (spelled 16 digits))

/-- Hexadecimal integers with a sign behind the mark, which the number within 64 bits
has by itself; a sign before the mark is applied to that, and leads to a number within
64 bits. -/
inductive ResignedWord : List Char → Int → Prop
  | intro (negative minus : Bool) {x : Char} (mark : x = 'x' ∨ x = 'X') {digits : List Char}
      (some : digits ≠ []) (all : ∀ c ∈ digits, isHexDigit c = true)
      (low : Int64.minValue.toInt ≤ signedNumber minus (spelled 16 digits))
      (high : signedNumber minus (spelled 16 digits) ≤ Int64.maxValue.toInt)
      (fits : signedNumber negative (signedNumber minus (spelled 16 digits)) ≤
        Int64.maxValue.toInt) :
      ResignedWord (signed negative ('0' :: x :: (if minus then '-' else '+') :: digits))
        (signedNumber negative (signedNumber minus (spelled 16 digits)))

/-- Hexadecimal integers with a minus sign before the mark and one behind it, where the
latter makes the least number of 64 bits. -/
inductive OverflowingWord : List Char → Prop
  | intro {x : Char} (mark : x = 'x' ∨ x = 'X') {digits : List Char} (some : digits ≠ [])
      (all : ∀ c ∈ digits, isHexDigit c = true)
      (least : -(spelled 16 digits : Int) = Int64.minValue.toInt) :
      OverflowingWord (signed true ('0' :: x :: '-' :: digits))

/-- A number of 64 bits with a minus sign before it or without; the sign wraps around. -/
def signed64 (negative : Bool) (n : Int) : Int :=
  if negative then (-Int64.ofInt n).toInt else n

/-- The sign makes the number another one, but for the least of them. -/
theorem signed64_eq {negative : Bool} {n : Int} (high : n ≤ Int64.maxValue.toInt)
    (fits : signedNumber negative n ≤ Int64.maxValue.toInt) :
    signed64 negative n = signedNumber negative n := by
  cases negative with
  | false => rfl
  | true =>
    have most : Int64.maxValue.toInt = 2 ^ 63 - 1 := by decide
    change -n ≤ _ at fits
    show (-Int64.ofInt n).toInt = -n
    rw [← Int64.ofInt_neg, Int64.toInt_ofInt_of_le] <;> omega

/-! ## Words that start like numbers -/

/-- A word starts like a number if behind its sign there is a digit. -/
theorem startsNumber_iff {w : List Char} :
    startsNumber w = true ↔
      ∃ negative d rest, w = signed negative (d :: rest) ∧ d.isDigit = true := by
  constructor
  · intro starts
    unfold startsNumber at starts
    split at starts
    · exact ⟨true, _, _, rfl, starts⟩
    · exact ⟨false, _, _, rfl, starts⟩
    · cases starts
  · rintro ⟨negative, d, rest, rfl, digit⟩
    cases negative with
    | true => exact digit
    | false =>
      rw [signed, if_neg Bool.false_ne_true, startsNumber_cons, if_neg]
      · exact digit
      · rintro ⟨rfl, -⟩
        cases digit

theorem classify_plain {w : List Char} (noEq : '=' ∉ w)
    (noMark : w.head? ≠ some '#' ∧ w.head? ≠ some '@') :
    classify w = if startsNumber w then number w else .ok (.word (String.ofList w)) := by
  unfold Token.classify
  split
  · exact absurd rfl noMark.1
  · exact absurd rfl noMark.2
  · rw [if_neg (by simpa using noEq)]

/-- A digit is no sign and no mark. -/
theorem digit_plain {d : Char} (digit : d.isDigit = true) :
    d ≠ '-' ∧ d ≠ '+' ∧ d ≠ 'x' ∧ d ≠ 'X' ∧ d ≠ '#' ∧ d ≠ '@' := by
  refine ⟨?_, ?_, ?_, ?_, ?_, ?_⟩ <;> rintro rfl <;> cases digit

theorem hexDigit_plain {d : Char} (digit : isHexDigit d = true) : d ≠ '-' ∧ d ≠ '+' := by
  constructor <;> rintro rfl <;> cases digit

/-- What is read of digits without a sign. -/
theorem readInteger_unsigned (radix : Nat) {d : Char} {rest : List Char}
    (plain : d ≠ '-' ∧ d ≠ '+') :
    readInteger radix (d :: rest) =
      (readDigits radix (d :: rest)).map fun n : Nat => (n : Int) := by
  rw [readInteger.eq_def]
  split
  · rename_i same
    exact absurd (List.cons.inj same).1 plain.1
  · rename_i same
    exact absurd (List.cons.inj same).1 plain.2
  · rfl

/-- What is read behind a minus sign, or without one. -/
theorem readInteger_signed (radix : Nat) (negative : Bool) {d : Char} {rest : List Char}
    (plain : d ≠ '-' ∧ d ≠ '+') :
    readInteger radix (signed negative (d :: rest)) =
      (readDigits radix (d :: rest)).map fun n : Nat => signedNumber negative (n : Int) := by
  cases negative with
  | true =>
    rw [signed, if_pos rfl, readInteger]
    cases readDigits radix (d :: rest) <;> rfl
  | false => exact readInteger_unsigned radix plain

/-- What is read behind a sign of either kind. -/
theorem readInteger_resigned (radix : Nat) (minus : Bool) (rest : List Char) :
    readInteger radix ((if minus then '-' else '+') :: rest) =
      (readDigits radix rest).map fun n : Nat => signedNumber minus (n : Int) := by
  cases minus <;> cases h : readDigits radix rest <;> simp [readInteger, signedNumber, h]

theorem readInt64_eq_some_iff {radix : Nat} {cs : List Char} {v : Int} :
    readInt64 radix cs = some v ↔
      readInteger radix cs = some v ∧ Int64.minValue.toInt ≤ v ∧ v ≤ Int64.maxValue.toInt := by
  simp [readInt64, Option.filter_eq_some_iff]

/-- A numeral with the mark of hexadecimal numbers. -/
theorem number_hexadecimal (negative : Bool) {x : Char} (mark : x = 'x' ∨ x = 'X')
    (rest : List Char) :
    number (signed negative ('0' :: x :: rest)) =
      match readInt64 16 rest with
      | some n => .ok (.int (signed64 negative n))
      | none => .error (.invalidNumber (String.ofList (signed negative ('0' :: x :: rest)))) := by
  have marked : (x == 'x' || x == 'X') = true := by simpa using mark
  cases negative <;> cases read : readInt64 16 rest <;>
    simp [Token.number, signed, marked, signed64, read]

/-! ## Integers -/

theorem classify_of_digit {negative : Bool} {d : Char} {rest : List Char}
    (digit : d.isDigit = true) (noEq : '=' ∉ signed negative (d :: rest)) :
    classify (signed negative (d :: rest)) = number (signed negative (d :: rest)) := by
  have starts := startsNumber_iff.mpr ⟨negative, d, rest, rfl, digit⟩
  obtain ⟨-, -, -, -, noHash, noAt⟩ := digit_plain digit
  rw [classify_plain noEq, if_pos starts]
  cases negative <;> simp [signed, noHash, noAt]

theorem classify_hexadecimal {negative : Bool} {x : Char} (mark : x = 'x' ∨ x = 'X')
    {rest : List Char} (noEq : '=' ∉ signed negative ('0' :: x :: rest)) :
    classify (signed negative ('0' :: x :: rest)) =
      match readInt64 16 rest with
      | some n => .ok (.int (signed64 negative n))
      | none => .error (.invalidNumber (String.ofList (signed negative ('0' :: x :: rest)))) := by
  rw [classify_of_digit (by decide) noEq, number_hexadecimal negative mark]

/-- The documented integers are read as what they stand for. -/
theorem IntegerWord.classify {w : List Char} {v : Int} (h : IntegerWord w v) (noEq : '=' ∉ w) :
    classify w = .ok (.int v) := by
  cases h with
  | @decimal negative digits some all low high =>
    obtain ⟨d, rest, rfl⟩ := List.exists_cons_of_ne_nil some
    have digit := all d List.mem_cons_self
    obtain ⟨noMinus, noPlus, -⟩ := digit_plain digit
    have unmarked : ∀ x tail, d :: rest = '0' :: x :: tail → x ≠ 'x' ∧ x ≠ 'X' := by
      intro x tail same
      obtain ⟨-, -, small, large, -⟩ := digit_plain (all x (by simp [same]))
      exact ⟨small, large⟩
    have integer : readInteger 10 (signed negative (d :: rest)) = _ :=
      readInteger_signed 10 negative ⟨noMinus, noPlus⟩
    rw [readDigits_decimal.mpr ⟨some, all, rfl⟩] at integer
    rw [classify_of_digit digit noEq, number_unmarked negative noMinus unmarked,
      readInt64_eq_some_iff.mpr ⟨integer, low, high⟩]
  | @hexadecimal negative x mark digits some all high =>
    obtain ⟨d, rest, rfl⟩ := List.exists_cons_of_ne_nil some
    have plain := hexDigit_plain (all d List.mem_cons_self)
    have integer : readInteger 16 (d :: rest) = _ := readInteger_unsigned 16 plain
    rw [readDigits_hexadecimal.mpr ⟨some, all, rfl⟩] at integer
    have low : Int64.minValue.toInt ≤ spelled 16 (d :: rest) := by
      have least : Int64.minValue.toInt ≤ 0 := by decide
      omega
    have fits : signedNumber negative (spelled 16 (d :: rest)) ≤ Int64.maxValue.toInt := by
      cases negative <;> simp only [signedNumber] <;> omega
    rw [classify_hexadecimal mark noEq, readInt64_eq_some_iff.mpr ⟨integer, low, high⟩,
      ← signed64_eq high fits]

theorem ResignedWord.classify {w : List Char} {v : Int} (h : ResignedWord w v) (noEq : '=' ∉ w) :
    classify w = .ok (.int v) := by
  obtain @⟨negative, minus, x, mark, digits, some, all, low, high, fits⟩ := h
  have integer := readInteger_resigned 16 minus digits
  rw [readDigits_hexadecimal.mpr ⟨some, all, rfl⟩] at integer
  rw [classify_hexadecimal mark noEq, readInt64_eq_some_iff.mpr ⟨integer, low, high⟩,
    ← signed64_eq high fits]

/-- The sign in front has no effect where it would lead out of the 64 bits. -/
theorem OverflowingWord.classify {w : List Char} (h : OverflowingWord w) (noEq : '=' ∉ w) :
    classify w = .ok (.int Int64.minValue.toInt) := by
  obtain @⟨x, mark, digits, some, all, least⟩ := h
  have integer : readInteger 16 ('-' :: digits) = _ := readInteger_resigned 16 true digits
  rw [readDigits_hexadecimal.mpr ⟨some, all, rfl⟩] at integer
  have value : signedNumber true (spelled 16 digits) = Int64.minValue.toInt := least
  rw [Option.map_some, value] at integer
  rw [classify_hexadecimal mark noEq,
    readInt64_eq_some_iff.mpr ⟨integer, Int.le_refl _, by decide⟩]
  rfl

/-- What is read behind the mark of hexadecimal numbers. -/
theorem integer_of_hexadecimal {negative : Bool} {x : Char} (mark : x = 'x' ∨ x = 'X')
    {rest : List Char} {n : Int} (read : readInt64 16 rest = some n)
    (fits : ¬ OverflowingWord (signed negative ('0' :: x :: rest))) :
    IntegerWord (signed negative ('0' :: x :: rest)) (signed64 negative n) ∨
      ResignedWord (signed negative ('0' :: x :: rest)) (signed64 negative n) := by
  obtain ⟨integer, low, high⟩ := readInt64_eq_some_iff.mp read
  cases rest with
  | nil => cases integer
  | cons d rest =>
    by_cases sign : ∃ minus : Bool, d = if minus then '-' else '+'
    · obtain ⟨minus, rfl⟩ := sign
      rw [readInteger_resigned, Option.map_eq_some_iff] at integer
      obtain ⟨m, digits, rfl⟩ := integer
      obtain ⟨some, all, rfl⟩ := readDigits_hexadecimal.mp digits
      have small : signedNumber negative (signedNumber minus (spelled 16 rest)) ≤
          Int64.maxValue.toInt := by
        cases negative with
        | false => exact high
        | true =>
          have most : Int64.minValue.toInt = -Int64.maxValue.toInt - 1 := by decide
          -- Only the least number of all has no counterpart.
          refine Int.not_lt.mp fun large => ?_
          change Int64.maxValue.toInt < -signedNumber minus (spelled 16 rest) at large
          cases minus with
          | false =>
            change Int64.maxValue.toInt < -(spelled 16 rest : Int) at large
            omega
          | true =>
            refine fits (.intro mark some all ?_)
            change Int64.minValue.toInt ≤ -(spelled 16 rest : Int) at low
            change Int64.maxValue.toInt < - -(spelled 16 rest : Int) at large
            omega
      rw [signed64_eq high small]
      exact .inr (.intro negative minus mark some all low high small)
    · have plain : d ≠ '-' ∧ d ≠ '+' :=
        ⟨fun same => sign ⟨true, same⟩, fun same => sign ⟨false, same⟩⟩
      rw [readInteger_unsigned 16 plain, Option.map_eq_some_iff] at integer
      obtain ⟨m, digits, rfl⟩ := integer
      obtain ⟨some, all, rfl⟩ := readDigits_hexadecimal.mp digits
      rw [signed64_eq high (by cases negative <;> simp only [signedNumber] <;> omega)]
      exact .inl (.hexadecimal negative mark some all high)

/-- What is read of a numeral without that mark. -/
theorem integer_of_decimal {negative : Bool} {d : Char} {rest : List Char}
    (plain : d ≠ '-' ∧ d ≠ '+') {n : Int}
    (read : readInt64 10 (signed negative (d :: rest)) = some n) :
    IntegerWord (signed negative (d :: rest)) n := by
  obtain ⟨integer, low, high⟩ := readInt64_eq_some_iff.mp read
  rw [readInteger_signed 10 negative plain, Option.map_eq_some_iff] at integer
  obtain ⟨m, digits, rfl⟩ := integer
  obtain ⟨some, all, rfl⟩ := readDigits_decimal.mp digits
  exact .decimal negative some all low high

/-- A word that starts like a number is an integer of the two kinds, a float, or
refused. -/
theorem classify_of_startsNumber {w : List Char} (noEq : '=' ∉ w) (fits : ¬ OverflowingWord w)
    (starts : startsNumber w = true) :
    (∃ v, classify w = .ok (.int v) ∧ (IntegerWord w v ∨ ResignedWord w v)) ∨
      (∃ x, classify w = .ok (.float x)) ∨
      classify w = .error (.invalidNumber (String.ofList w)) := by
  obtain ⟨negative, d, rest, rfl, digit⟩ := startsNumber_iff.mp starts
  by_cases marked : ∃ x tail, d :: rest = '0' :: x :: tail ∧ (x = 'x' ∨ x = 'X')
  · obtain ⟨x, tail, same, mark⟩ := marked
    rw [same] at noEq fits ⊢
    rw [classify_hexadecimal mark noEq]
    cases read : readInt64 16 tail with
    | none => exact .inr (.inr rfl)
    | some n => exact .inl ⟨_, rfl, integer_of_hexadecimal mark read fits⟩
  · have unmarked : ∀ x tail, d :: rest = '0' :: x :: tail → x ≠ 'x' ∧ x ≠ 'X' := by
      intro x tail same
      exact ⟨fun small => marked ⟨x, tail, same, .inl small⟩,
        fun large => marked ⟨x, tail, same, .inr large⟩⟩
    obtain ⟨noMinus, noPlus, -⟩ := digit_plain digit
    rw [classify_of_digit digit noEq, number_unmarked negative noMinus unmarked]
    cases read : readInt64 10 (signed negative (d :: rest)) with
    | some n => exact .inl ⟨n, rfl, .inl (integer_of_decimal ⟨noMinus, noPlus⟩ read)⟩
    | none =>
      cases readDouble (signed negative (d :: rest)) with
      | some x => exact .inr (.inl ⟨x, rfl⟩)
      | none => exact .inr (.inr rfl)

theorem signed_inj {a b : Bool} {c d : Char} {cs ds : List Char} (hc : c ≠ '-') (hd : d ≠ '-')
    (same : signed a (c :: cs) = signed b (d :: ds)) : a = b ∧ c = d ∧ cs = ds := by
  cases a <;> cases b <;> simp_all [signed, eq_comm]

/-- No documented integer has a sign behind the mark. -/
theorem ResignedWord.undocumented {w : List Char} {u : Int} (h : ResignedWord w u) (v : Int) :
    ¬ IntegerWord w v := by
  have unsigned : ∀ minus : Bool, isHexDigit (if minus then '-' else '+') = false := by decide
  obtain @⟨negative, minus, x, mark, digits, -, -, -, -, -⟩ := h
  intro documented
  generalize hw : signed negative ('0' :: x :: (if minus then '-' else '+') :: digits) = w
    at documented
  cases documented with
  | @decimal negative' digits' some all =>
    obtain ⟨d, rest, rfl⟩ := List.exists_cons_of_ne_nil some
    obtain ⟨-, rfl, rfl⟩ := signed_inj (by decide) (digit_plain (all d List.mem_cons_self)).1 hw
    obtain ⟨-, -, small, large, -⟩ := digit_plain (all x (by simp))
    exact mark.elim small large
  | @hexadecimal negative' x' mark' digits' some all =>
    obtain ⟨-, -, same⟩ := signed_inj (by decide) (by decide) hw
    have signs := all (if minus then '-' else '+') (by simp [← (List.cons.inj same).2])
    exact Bool.false_ne_true ((unsigned minus).symm.trans signs)

/-- Of a word without an equals sign that is no symbol and no label, and in which no
sign leads out of the 64 bits: it is an integer exactly if it is a documented one, or a
hexadecimal one with a sign behind the mark, and then that number; these two kinds have
no word in common; any other word that starts with a digit, or with a minus sign and a
digit, is a float or refused; and every remaining word is a name. -/
theorem integer_tokens (w : List Char) (noEq : '=' ∉ w)
    (noMark : w.head? ≠ some '#' ∧ w.head? ≠ some '@') (fits : ¬ OverflowingWord w) :
    (∀ v, classify w = .ok (.int v) ↔ IntegerWord w v ∨ ResignedWord w v) ∧
      (∀ u v, ResignedWord w u → ¬ IntegerWord w v) ∧
      (startsNumber w = true → (∀ v, ¬ (IntegerWord w v ∨ ResignedWord w v)) →
        (∃ x, classify w = .ok (.float x)) ∨
          classify w = .error (.invalidNumber (String.ofList w))) ∧
      (startsNumber w = false → classify w = .ok (.word (String.ofList w))) := by
  have kinds := classify_of_startsNumber noEq fits
  have names (starts : startsNumber w = false) : classify w = .ok (.word (String.ofList w)) := by
    rw [classify_plain noEq noMark, starts, if_neg Bool.false_ne_true]
  refine ⟨fun v => ⟨fun read => ?_, ?_⟩, fun u v h => h.undocumented v, fun starts no => ?_, names⟩
  · by_cases starts : startsNumber w = true
    · rcases kinds starts with ⟨u, same, written⟩ | ⟨x, float⟩ | refused
      · rw [same] at read
        cases read
        exact written
      · rw [float] at read
        cases read
      · rw [refused] at read
        cases read
    · rw [names (Bool.eq_false_iff.mpr starts)] at read
      cases read
  · rintro (documented | resigned)
    · exact documented.classify noEq
    · exact resigned.classify noEq
  · rcases kinds starts with ⟨v, -, written⟩ | float | refused
    · exact absurd written (no v)
    · exact .inl float
    · exact .inr refused

/-- A word of each kind. -/
theorem integer_tokens_each :
    classify "-0x1F".toList = .ok (.int (-31)) ∧ classify "x1".toList = .ok (.word "x1") := by
  have worth : spelled 16 ['1', 'F'] = 31 := by decide
  have documented : IntegerWord "-0x1F".toList (-31) := by
    have written := IntegerWord.hexadecimal true (.inl rfl) (List.cons_ne_nil '1' ['F'])
      (by simp [isHexDigit_iff]) (by rw [worth]; decide)
    rwa [worth] at written
  have resigned (w : List Char) (h : OverflowingWord w) : w[3]? = some '-' := by
    cases h
    rfl
  obtain ⟨integers, -, -, -⟩ := integer_tokens "-0x1F".toList (by decide) (by decide)
    fun h => absurd (resigned _ h) (by decide)
  obtain ⟨-, -, -, names⟩ := integer_tokens "x1".toList (by decide) (by decide)
    fun h => absurd (resigned _ h) (by decide)
  exact ⟨(integers _).mpr (.inl documented), names (by decide)⟩

/-- The sign behind the mark, which the grammar does not know, is read all the same. -/
theorem integer_tokens_resigned :
    classify "0x-5".toList = .ok (.int (-5)) ∧ ∀ v, ¬ IntegerWord "0x-5".toList v := by
  have worth : spelled 16 ['5'] = 5 := by decide
  have resigned : ResignedWord "0x-5".toList (-5) := by
    have written := ResignedWord.intro false true (.inl rfl) (List.cons_ne_nil '5' [])
      (by simp [isHexDigit_iff]) (by rw [worth]; decide) (by rw [worth]; decide)
      (by rw [worth]; decide)
    rwa [worth] at written
  exact ⟨resigned.classify (by decide), resigned.undocumented⟩

end Lingo.Token
