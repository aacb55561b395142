import Lingo.Number.Double

/-!
# Single precision numbers

A `Single` is a 32-bit floating point number given by its bit pattern, the form
in which short float operands are stored in instructions.
-/

namespace Lingo.Number

/-- A 32-bit floating point number, as its bit pattern. -/
structure Single where
  bits : UInt32
  deriving DecidableEq, Repr, Inhabited

namespace Single

/-- Value of the sign bit. -/
def signBit : Nat := 0x80000000

/-- The number with a sign and a magnitude below `signBit`. -/
def ofMagnitude (negative : Bool) (magnitude : Nat) : Single :=
  ⟨(magnitude + if negative then signBit else 0).toUInt32⟩

/-- The bit pattern without the sign. -/
def magnitude (x : Single) : Nat :=
  x.bits.toNat % signBit

def negative (x : Single) : Bool :=
  signBit ≤ x.bits.toNat

def isNaN (x : Single) : Bool :=
  single.infinity < x.magnitude

def isInfinite (x : Single) : Bool :=
  x.magnitude == single.infinity

/-- The single nearest to an integer. -/
def ofInt (n : Int) : Single :=
  ofMagnitude (n < 0) (single.round n.natAbs 1)

/-- What the payload of a double is divided by to become that of a single. -/
def payloadScale : Nat := 0x20000000

/-- Payload bit that marks a NaN as quiet. -/
def quietBit : Nat := 0x400000

/-- The single nearest to a double; of a NaN the leading payload bits are kept. -/
def ofDouble (x : Double) : Single :=
  if x.isNaN then
    ofMagnitude x.negative
      (single.infinity + ((x.magnitude - double.infinity) / payloadScale ||| quietBit))
  else if x.isInfinite then ofMagnitude x.negative single.infinity
  else
    ofMagnitude x.negative
      (single.round (double.numerator x.magnitude) (double.denominator x.magnitude))

/-- The same number as a double. -/
def toDouble (x : Single) : Double :=
  if x.isNaN then
    .ofMagnitude x.negative
      (double.infinity + (x.magnitude - single.infinity ||| quietBit) * payloadScale)
  else if x.isInfinite then .infinity x.negative
  else .ofRatio x.negative (single.numerator x.magnitude) (single.denominator x.magnitude)

end Single

end Lingo.Number
