/-!
# Rounding to a binary format

A binary floating point format is given by the number of fraction bits it
stores and the exponent of its smallest positive number. Nonnegative numbers
of a format are represented by their *magnitude*, the bit pattern without the
sign read as a natural number; magnitudes are ordered as the numbers are, and
the one after the greatest finite number is infinity.

* `Format.round` gives the magnitude nearest to a quotient of natural numbers,
  a tie going to the even one.
* `Format.parts` gives back the number as an integer times a power of two.
-/

namespace Lingo.Number

/-- The integer nearest to `n / d`; a tie goes to the even one. -/
def roundDiv (n d : Nat) : Nat :=
  let q := n / d
  let r := n % d
  if d < 2 * r || (d == 2 * r && q % 2 == 1) then q + 1 else q

/-- The greatest `k` with `2 ^ k ≤ n / d`, for positive `n` and `d`. -/
def floorLog2 (n d : Nat) : Int :=
  let k : Int := (n.log2 : Int) - d.log2
  if d * Nat.pow 2 k.toNat ≤ n * Nat.pow 2 (-k).toNat then k else k - 1

/-- A binary floating point format. -/
structure Format where
  /-- Stored fraction bits. -/
  fractionBits : Nat
  /-- Exponent of the smallest positive number, a power of two. -/
  minExponent : Int
  /-- Magnitude of infinity. -/
  infinity : Nat

/-- The 64-bit format. -/
def double : Format := ⟨52, -1074, 0x7FF0000000000000⟩

/-- The 32-bit format. -/
def single : Format := ⟨23, -149, 0x7F800000⟩

/-- The magnitude nearest to `n / d`; a tie goes to the even one, and what is
too large becomes infinity. -/
def Format.round (f : Format) (n d : Nat) : Nat :=
  if n == 0 then 0
  else
    let e := max (floorLog2 n d - f.fractionBits) f.minExponent
    let q := roundDiv (n * Nat.pow 2 (-e).toNat) (d * Nat.pow 2 e.toNat)
    min f.infinity ((e - f.minExponent).toNat * Nat.pow 2 f.fractionBits + q)

/-- The number with a finite magnitude, as `(m, e)` for `m * 2 ^ e`. -/
def Format.parts (f : Format) (magnitude : Nat) : Nat × Int :=
  let e := magnitude / Nat.pow 2 f.fractionBits
  let fraction := magnitude % Nat.pow 2 f.fractionBits
  if e == 0 then (fraction, f.minExponent)
  else (fraction + Nat.pow 2 f.fractionBits, f.minExponent + (e - 1))

/-- Numerator of the number with a finite magnitude. -/
def Format.numerator (f : Format) (magnitude : Nat) : Nat :=
  let (m, e) := f.parts magnitude
  m * Nat.pow 2 e.toNat

/-- Denominator of the number with a finite magnitude. -/
def Format.denominator (f : Format) (magnitude : Nat) : Nat :=
  let (_, e) := f.parts magnitude
  Nat.pow 2 (-e).toNat

end Lingo.Number
