import Lingo.Number.Single

/-!
# Shortest decimal texts

`Format.shortest` finds the fewest significant digits that read back as a given
number of a binary format, and among decimals with that many digits the
nearest. `Double.text` and `Single.text` write those digits with at least one
fraction digit, in exponent form from `10 ^ 16` on and below `10 ^ -4`;
`Double.plainText` never uses an exponent and writes whole numbers without a
point.
-/

namespace Lingo.Number

/-- The greatest `k` with `10 ^ k ≤ n / d`, for positive `n` and `d`. -/
def floorLog10 (n d : Nat) : Int :=
  let k := (floorLog2 n d * 30103).fdiv 100000
  let reaches (k : Int) : Bool := Nat.pow 10 k.toNat * d ≤ n * Nat.pow 10 (-k).toNat
  if reaches (k + 1) then k + 1 else if reaches k then k else k - 1

/-- A positive decimal `digits * 10 ^ exponent` whose last digit is not zero. -/
structure Decimal where
  digits : Nat
  exponent : Int
  deriving DecidableEq, Repr, Inhabited

/-- Moves trailing zeros, at most `fuel` of them, into the exponent. -/
def Decimal.trimmed : Nat → Nat → Int → Decimal
  | 0, digits, exponent => ⟨digits, exponent⟩
  | fuel + 1, digits, exponent =>
    if digits % 10 == 0 then Decimal.trimmed fuel (digits / 10) (exponent + 1)
    else ⟨digits, exponent⟩

/-- The magnitude that `digits * 10 ^ exponent` reads as. -/
def Format.ofDecimal (f : Format) (digits : Nat) (exponent : Int) : Nat :=
  f.round (digits * Nat.pow 10 exponent.toNat) (Nat.pow 10 (-exponent).toNat)

/-- The neighbour of the number among the multiples of `10 ^ exponent` that
reads back as it: the nearer one if both do, and the upper one of two equally
near. -/
def Format.onGrid (f : Format) (magnitude : Nat) (exponent : Int) : Option Nat :=
  let n := f.numerator magnitude * Nat.pow 10 (-exponent).toNat
  let d := f.denominator magnitude * Nat.pow 10 exponent.toNat
  let low := n / d
  let lowReads := f.ofDecimal low exponent == magnitude
  let highReads := f.ofDecimal (low + 1) exponent == magnitude
  let highNearer := d ≤ 2 * (n % d)
  if highReads && (!lowReads || highNearer) then some (low + 1)
  else if lowReads then some low
  else none

/-- Tries ever finer grids, starting at `10 ^ exponent`. -/
def Format.shortestFrom (f : Format) (magnitude : Nat) : Nat → Int → Decimal
  | 0, exponent =>
    ⟨f.numerator magnitude * Nat.pow 10 (-exponent).toNat /
      (f.denominator magnitude * Nat.pow 10 exponent.toNat), exponent⟩
  | fuel + 1, exponent =>
    match f.onGrid magnitude exponent with
    | some digits => Decimal.trimmed 20 digits exponent
    | none => f.shortestFrom magnitude fuel (exponent - 1)

/-- The shortest decimal that reads back as a positive finite number. -/
def Format.shortest (f : Format) (magnitude : Nat) : Decimal :=
  f.shortestFrom magnitude 17
    (floorLog10 (f.numerator magnitude) (f.denominator magnitude))

/-! ## Texts -/

/-- Decimal digits of a number. -/
def digitChars (n : Nat) : List Char :=
  Nat.toDigits 10 n

/-- Decimal digits with a point after the first `point` of them, padded with
zeros on either side; a whole number ends in `whole`. -/
def positional (digits : List Char) (point : Int) (whole : List Char) : List Char :=
  if point ≤ 0 then
    '0' :: '.' :: List.replicate (-point).toNat '0' ++ digits
  else
    let k := point.toNat
    if digits.length ≤ k then
      digits ++ List.replicate (k - digits.length) '0' ++ whole
    else digits.take k ++ '.' :: digits.drop k

/-- One digit before the point, the others after it, and the exponent. -/
def scientific (digits : List Char) (exponent : Int) : List Char :=
  (match digits with
    | [] => []
    | [c] => [c]
    | c :: rest => c :: '.' :: rest) ++ 'e' :: (toString exponent).toList

/-- Text of a positive decimal: in exponent form from `10 ^ 16` on and below
`10 ^ -4`, else with a fraction. -/
def Decimal.text (x : Decimal) : List Char :=
  let digits := digitChars x.digits
  let exponent := x.exponent + digits.length - 1
  if 16 ≤ exponent || exponent < -4 then scientific digits exponent
  else positional digits (exponent + 1) ['.', '0']

/-- Text of a positive decimal without exponent, a whole number without point. -/
def Decimal.plainText (x : Decimal) : List Char :=
  let digits := digitChars x.digits
  positional digits (x.exponent + digits.length) []

/-- Text of a magnitude with its sign, given the texts of zero and of positive
finite numbers. -/
def Format.signed (f : Format) (negative : Bool) (magnitude : Nat) (zero : String)
    (finite : Decimal → List Char) : String :=
  if f.infinity < magnitude then "NaN"
  else
    (if negative then "-" else "") ++
      (if magnitude == f.infinity then "inf"
      else if magnitude == 0 then zero
      else String.ofList (finite (f.shortest magnitude)))

/-- Shortest text of a double, always with a fraction or an exponent. -/
def Double.text (x : Double) : String :=
  double.signed x.negative x.magnitude "0.0" Decimal.text

/-- Shortest text of a double in positional notation. -/
def Double.plainText (x : Double) : String :=
  double.signed x.negative x.magnitude "0" Decimal.plainText

/-- Shortest text of a single, always with a fraction or an exponent. -/
def Single.text (x : Single) : String :=
  single.signed x.negative x.magnitude "0.0" Decimal.text

end Lingo.Number
