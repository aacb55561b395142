import Lingo.Number.Digits
import Lingo.Number.Double

/-!
# Numerals

How text is read as a number. An integer is an optional sign and at least one
digit; it is refused when it does not fit. A decimal is an optional sign
followed by `inf`, `infinity` or `nan` in any case, or by digits with an
optional point, at least one digit in all, and an optional exponent, which is
read up to the digit that takes it to `exponentCap`.
-/

namespace Lingo.Number

/-- Value of a digit in a radix of at most 16. -/
def digitValue? (radix : Nat) (c : Char) : Option Nat :=
  let value :=
    if '0' ≤ c && c ≤ '9' then some (c.toNat - '0'.toNat)
    else if 'a' ≤ c && c ≤ 'f' then some (c.toNat - 'a'.toNat + 10)
    else if 'A' ≤ c && c ≤ 'F' then some (c.toNat - 'A'.toNat + 10)
    else none
  value.filter (· < radix)

/-- The values of one or more digits; none if some character is no digit. -/
def digitValues? (radix : Nat) (cs : List Char) : Option (List Nat) :=
  if cs.isEmpty then none else cs.mapM (digitValue? radix)

/-- The number that one or more digits spell. -/
def readDigits (radix : Nat) (cs : List Char) : Option Nat :=
  (digitValues? radix cs).map fun ds => ofDigits radix ds.reverse

/-- The integer that an optional sign and digits spell. -/
def readInteger (radix : Nat) : List Char → Option Int
  | '-' :: rest => (readDigits radix rest).map fun n => -(n : Int)
  | '+' :: rest => (readDigits radix rest).map Int.ofNat
  | cs => (readDigits radix cs).map Int.ofNat

/-- The natural number that an optional plus sign and digits spell. -/
def readNatural : List Char → Option Nat
  | '+' :: rest => readDigits 10 rest
  | cs => readDigits 10 cs

/-- A 32-bit integer. -/
def readInt32 (cs : List Char) : Option Int32 :=
  ((readInteger 10 cs).filter fun n =>
    Int32.minValue.toInt ≤ n && n ≤ Int32.maxValue.toInt).map Int32.ofInt

/-- An integer of at most 64 bits. -/
def readInt64 (radix : Nat) (cs : List Char) : Option Int :=
  (readInteger radix cs).filter fun n =>
    Int64.minValue.toInt ≤ n && n ≤ Int64.maxValue.toInt

/-- A natural number of at most `bits` bits. -/
def readBounded (bits : Nat) (cs : List Char) : Option Nat :=
  (readNatural cs).filter (· < Nat.pow 2 bits)

/-! ## Decimals -/

/-- The double nearest to `± digits * 10 ^ exponent`, where `size` is how many
digits `digits` has. Numbers far outside the range of the format are settled
without computing the power. -/
def Double.ofDecimal (negative : Bool) (digits size : Nat) (exponent : Int) : Double :=
  if digits == 0 || size + exponent < -400 then ofMagnitude negative 0
  else if 400 < size + exponent then infinity negative
  else ofRatio negative (digits * Nat.pow 10 exponent.toNat) (Nat.pow 10 (-exponent).toNat)

/-- An exponent that has reached this size takes no further digits. -/
def exponentCap : Nat := 65536

/-- The exponent that digits spell, the most significant first; those that
follow once it has reached `exponentCap` do not count. -/
def exponentOf (ds : List Nat) : Nat :=
  ds.foldl (fun n d => if n < exponentCap then n * 10 + d else n) 0

/-- The exponent that an optional sign and digits spell. -/
def readSignedExponent : List Char → Option Int
  | '-' :: rest => (digitValues? 10 rest).map fun ds => -(exponentOf ds : Int)
  | '+' :: rest => (digitValues? 10 rest).map fun ds => (exponentOf ds : Int)
  | cs => (digitValues? 10 cs).map fun ds => (exponentOf ds : Int)

/-- The exponent that follows the digits: none written is 0. -/
def readExponent : List Char → Option Int
  | [] => some 0
  | c :: rest => if c == 'e' || c == 'E' then readSignedExponent rest else none

/-- Digits, an optional point and more digits, and an optional exponent. -/
def readDecimal (negative : Bool) (cs : List Char) : Option Double :=
  let whole := cs.takeWhile Char.isDigit
  let afterWhole := cs.dropWhile Char.isDigit
  let (fraction, rest) :=
    match afterWhole with
    | '.' :: tail => (tail.takeWhile Char.isDigit, tail.dropWhile Char.isDigit)
    | tail => ([], tail)
  let written := whole ++ fraction
  match readDigits 10 written, readExponent rest with
  | some digits, some exponent =>
    let size := (written.dropWhile (· == '0')).length
    some (.ofDecimal negative digits size (exponent - fraction.length))
  | _, _ => none

/-- A decimal without its sign. -/
def readMagnitude (negative : Bool) (cs : List Char) : Option Double :=
  let word := cs.map Char.toLower
  if word == "inf".toList || word == "infinity".toList then some (.infinity negative)
  else if word == "nan".toList then
    some (if negative then ⟨Double.nan.bits ||| 0x8000000000000000⟩ else .nan)
  else readDecimal negative cs

/-- The double that a text spells. -/
def readDouble : List Char → Option Double
  | '-' :: rest => readMagnitude true rest
  | '+' :: rest => readMagnitude false rest
  | cs => readMagnitude false cs

end Lingo.Number
