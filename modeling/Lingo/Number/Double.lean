import Lingo.Number.Binary

/-!
# Double precision numbers

A `Double` is a 64-bit floating point number given by its bit pattern, so that
equality of values is equality of bits: every NaN equals itself, two NaNs with
different payloads differ, and so do the two zeros. The order of the numbers
themselves is `compare?`, and `totalCompare` extends it to all bit patterns.
-/

namespace Lingo.Number

/-- A 64-bit floating point number, as its bit pattern. -/
structure Double where
  bits : UInt64
  deriving DecidableEq, Repr, Inhabited

namespace Double

/-- Value of the sign bit. -/
def signBit : Nat := 0x8000000000000000

/-- The number with a sign and a magnitude below `signBit`. -/
def ofMagnitude (negative : Bool) (magnitude : Nat) : Double :=
  ⟨(magnitude + if negative then signBit else 0).toUInt64⟩

/-- The bit pattern without the sign. -/
def magnitude (x : Double) : Nat :=
  x.bits.toNat % signBit

/-- Whether the sign bit is set. -/
def negative (x : Double) : Bool :=
  signBit ≤ x.bits.toNat

def isNaN (x : Double) : Bool :=
  double.infinity < x.magnitude

def isInfinite (x : Double) : Bool :=
  x.magnitude == double.infinity

/-- Whether the number is one of the two zeros. -/
def isZero (x : Double) : Bool :=
  x.magnitude == 0

def zero : Double := ⟨0⟩

/-- The infinity with the given sign. -/
def infinity (negative : Bool) : Double :=
  ofMagnitude negative double.infinity

/-- The NaN that text spells. -/
def nan : Double := ⟨0x7FF8000000000000⟩

/-- The NaN that an operation without a result yields. -/
def invalid : Double := ⟨0xFFF8000000000000⟩

/-- A NaN operand as an operation passes it on: marked quiet, payload kept. -/
def quiet (x : Double) : Double :=
  ⟨x.bits ||| 0x0008000000000000⟩

/-- The double nearest to `± n / d`. -/
def ofRatio (negative : Bool) (n d : Nat) : Double :=
  ofMagnitude negative (double.round n d)

/-- The double nearest to an integer. -/
def ofInt (n : Int) : Double :=
  ofRatio (n < 0) n.natAbs 1

/-- Numerator of a finite number, with its sign. -/
def numerator (x : Double) : Int :=
  let n : Int := double.numerator x.magnitude
  if x.negative then -n else n

/-- Denominator of a finite number, a power of two. -/
def denominator (x : Double) : Nat :=
  double.denominator x.magnitude

/-! ## Order -/

/-- Position of a number among all numbers; the two zeros share theirs. -/
def rank (x : Double) : Int :=
  if x.negative then -(x.magnitude : Int) else x.magnitude

/-- Order of two numbers; a NaN is not ordered. -/
def compare? (x y : Double) : Option Ordering :=
  if x.isNaN || y.isNaN then none else some (compare x.rank y.rank)

/-- Equality of numbers: the two zeros are equal and a NaN equals nothing. -/
def sameNumber (x y : Double) : Bool :=
  x.compare? y == some .eq

/-- Order of all bit patterns: negative NaNs, the numbers with `-0.0` before
`0.0`, positive NaNs. -/
def totalCompare (x y : Double) : Ordering :=
  let key (z : Double) : Int := if z.negative then -(z.magnitude : Int) - 1 else z.magnitude
  compare (key x) (key y)

/-! ## Integers from numbers -/

/-- The integer part, clamped to 32 bits; a NaN gives 0. -/
def toInt32 (x : Double) : Int32 :=
  if x.isNaN then 0
  else if x.isInfinite then if x.negative then Int32.minValue else Int32.maxValue
  else
    let n := x.numerator.tdiv x.denominator
    if n < Int32.minValue.toInt then Int32.minValue
    else if Int32.maxValue.toInt < n then Int32.maxValue
    else Int32.ofInt n

/-- The nearest integer, a half going away from zero. -/
def roundAway (x : Double) : Double :=
  if x.isNaN || x.isInfinite then x
  else
    let n := double.numerator x.magnitude
    let d := double.denominator x.magnitude
    ofRatio x.negative ((2 * n + d) / (2 * d)) 1

end Double

end Lingo.Number
