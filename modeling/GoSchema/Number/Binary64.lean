/-! # Double-precision numbers

A number is kept as its 64 bits, so that equality is equality of bits and every question about
it is one about natural numbers.
-/

namespace GoSchema

/-- A binary floating-point number of 64 bits: sign, 11 bits of exponent, 52 bits of fraction. -/
structure Binary64 where
  bits : UInt64
  deriving DecidableEq, Repr, Inhabited

namespace Binary64

def ofFloat (x : Float) : Binary64 :=
  ⟨x.toBits⟩

def toFloat (x : Binary64) : Float :=
  Float.ofBits x.bits

/-- The nearest double to an integer, ties to even. -/
def ofInt (n : Int) : Binary64 :=
  ofFloat (Float.ofInt n)

/-- One more than the greatest fraction, which has 52 bits. -/
def fractionLimit : Nat :=
  0x10000000000000

/-- Is the highest bit, the sign, set? -/
def isNegative (x : Binary64) : Bool :=
  0x8000000000000000 ≤ x.bits.toNat

/-- The next 11 bits, the exponent. -/
def exponentField (x : Binary64) : Nat :=
  x.bits.toNat / fractionLimit % 0x800

/-- The lowest 52 bits, the fraction. -/
def fractionField (x : Binary64) : Nat :=
  x.bits.toNat % fractionLimit

def isFinite (x : Binary64) : Bool :=
  x.exponentField != 2047

/-- A finite number has the magnitude `significand * 2 ^ exponent`. -/
def significand (x : Binary64) : Nat :=
  if x.exponentField = 0 then x.fractionField else x.fractionField + fractionLimit

/-- The power of two of the last bit of the significand. -/
def exponent (x : Binary64) : Int :=
  max x.exponentField 1 - 1075

/-- Is the number a power of two whose lower neighbour is half as far away as its upper one? -/
def isBinadeStart (x : Binary64) : Bool :=
  x.fractionField == 0 && 1 < x.exponentField

end Binary64
end GoSchema
