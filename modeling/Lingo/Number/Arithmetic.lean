import Lingo.Number.Double

/-!
# Arithmetic of doubles

Each operation is the exact result rounded to the nearest double. A NaN operand
is passed on, the first before the second, and an operation that has no result
(`∞ - ∞`, `0 · ∞`, the root of a negative number) yields `Double.invalid`.
-/

namespace Lingo.Number.Double

def neg (x : Double) : Double :=
  ⟨x.bits ^^^ 0x8000000000000000⟩

def abs (x : Double) : Double :=
  ⟨x.bits &&& 0x7FFFFFFFFFFFFFFF⟩

/-- `f` on two operands that are not NaN; the first NaN among them otherwise. -/
def onNumbers (x y : Double) (f : Unit → Double) : Double :=
  if x.isNaN then x.quiet else if y.isNaN then y.quiet else f ()

/-- The sum. An exact zero is negative only when both operands are. -/
def add (x y : Double) : Double :=
  onNumbers x y fun _ =>
    if x.isInfinite then
      if y.isInfinite && x.negative != y.negative then invalid else x
    else if y.isInfinite then y
    else
      let n := x.numerator * y.denominator + y.numerator * x.denominator
      if n == 0 then ofMagnitude (x.negative && y.negative) 0
      else ofRatio (n < 0) n.natAbs (x.denominator * y.denominator)

/-- The difference. -/
def sub (x y : Double) : Double :=
  onNumbers x y fun _ => add x y.neg

/-- The product. -/
def mul (x y : Double) : Double :=
  onNumbers x y fun _ =>
    let negative := x.negative != y.negative
    if x.isInfinite || y.isInfinite then
      if x.isZero || y.isZero then invalid else infinity negative
    else
      ofRatio negative (x.numerator * y.numerator).natAbs (x.denominator * y.denominator)

/-- The quotient. -/
def div (x y : Double) : Double :=
  onNumbers x y fun _ =>
    let negative := x.negative != y.negative
    if x.isInfinite then if y.isInfinite then invalid else infinity negative
    else if y.isInfinite then ofMagnitude negative 0
    else if y.isZero then if x.isZero then invalid else infinity negative
    else
      ofRatio negative (x.numerator.natAbs * y.denominator) (x.denominator * y.numerator.natAbs)

/-- The remainder of the division toward zero, with the sign of the dividend. -/
def rem (x y : Double) : Double :=
  onNumbers x y fun _ =>
    if x.isInfinite || y.isZero then invalid
    else if y.isInfinite then x
    else
      let d := x.denominator * y.denominator
      ofRatio x.negative
        ((x.numerator.natAbs * y.denominator) % (y.numerator.natAbs * x.denominator)) d

/-- The greatest `r` below `r₀ + 2 ^ bits` with `r * r ≤ n`, found bit by bit
from `r₀`. -/
def isqrtFrom (n : Nat) : Nat → Nat → Nat
  | 0, r => r
  | bits + 1, r =>
    let r' := r + Nat.pow 2 bits
    isqrtFrom n bits (if r' * r' ≤ n then r' else r)

/-- The integer part of the square root. -/
def isqrt (n : Nat) : Nat :=
  isqrtFrom n (n.log2 / 2 + 1) 0

/-- The square root. The root of the scaled numerator has enough digits that
one more, set when the root is inexact, decides the rounding. -/
def sqrt (x : Double) : Double :=
  if x.isNaN then x.quiet
  else if x.isZero then x
  else if x.negative then invalid
  else if x.isInfinite then x
  else
    let n := x.numerator.natAbs * x.denominator * Nat.pow 4 64
    let r := isqrt n
    ofRatio false (2 * r + if r * r == n then 0 else 1) (2 * x.denominator * Nat.pow 2 64)

/-- The sine and the cosine are those of the platform; an infinite angle has
none. -/
def onAngle (f : Float → Float) (x : Double) : Double :=
  if x.isNaN then x.quiet
  else if x.isInfinite then invalid
  else ⟨(f (Float.ofBits x.bits)).toBits⟩

def sin (x : Double) : Double := onAngle Float.sin x

def cos (x : Double) : Double := onAngle Float.cos x

end Lingo.Number.Double
