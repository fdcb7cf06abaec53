/-!
# Double-precision numbers

A number in the 64-bit binary interchange format, kept as its bits: a sign, an
exponent of eleven bits and a fraction of fifty-two.  Without the sign, the bits
of a number that is not a NaN grow with its size, so comparison is comparison of
integers, and an integer is rounded to the format by building those bits.
-/

namespace DocumentMapper

structure Binary64 where
  bits : UInt64
deriving DecidableEq

namespace Binary64

def fractionUnit : Nat :=
  Nat.pow 2 52

def signUnit : Nat :=
  Nat.pow 2 63

/-- The size of the infinities, above which lie the NaNs. -/
def infinitySize : Nat :=
  2047 * fractionUnit

def size (x : Binary64) : Nat :=
  x.bits.toNat % signUnit

def isNegative (x : Binary64) : Bool :=
  signUnit <= x.bits.toNat

def isNaN (x : Binary64) : Bool :=
  infinitySize < x.size

def isFinite (x : Binary64) : Bool :=
  x.size < infinitySize

def ofSize (negative : Bool) (size : Nat) : Binary64 :=
  { bits := UInt64.ofNat (if negative then signUnit + size else size) }

/-!
## Order

The rank of a number is its size under its sign.  The two zeros share a rank and
a NaN has none; of two numbers with ranks the smaller has the smaller rank.
-/

def signed (negative : Bool) (size : Nat) : Int :=
  if negative then -(size : Int) else (size : Int)

def rank? (x : Binary64) : Option Int :=
  if x.isNaN then none else some (signed x.isNegative x.size)

/-!
## Rounding integers

The nearest number to an integer, a tie going to the even neighbour.
-/

def roundHalfEven (numerator denominator : Nat) : Nat :=
  let quotient := numerator / denominator
  let twice := 2 * (numerator % denominator)
  if twice < denominator then
    quotient
  else if denominator < twice then
    quotient + 1
  else
    quotient + quotient % 2

/-- The size of the nearest number to a natural number.  The leading bit of the
significand is not stored: it raises the exponent by one, as does a significand
that rounds up to the next power of two. -/
def sizeOfNat (n : Nat) : Nat :=
  if n = 0 then
    0
  else
    let exponent := n.log2
    let significand :=
      if exponent <= 52 then
        n * Nat.pow 2 (52 - exponent)
      else
        roundHalfEven n (Nat.pow 2 (exponent - 52))
    min infinitySize ((exponent + 1022) * fractionUnit + significand)

def rankOfInt (n : Int) : Int :=
  signed (n < 0) (sizeOfNat n.natAbs)

def ofInt (n : Int) : Binary64 :=
  ofSize (n < 0) (sizeOfNat n.natAbs)

/-!
## Subtraction
-/

def sub (x y : Binary64) : Binary64 :=
  { bits := (Float.ofBits x.bits - Float.ofBits y.bits).toBits }

instance : Sub Binary64 where
  sub := Binary64.sub

/-!
## Significand and exponent
-/

structure Parts where
  significand : Nat
  exponent : Int
  /-- The number below lies half as far away as the number above. -/
  atPowerOfTwo : Bool

def parts (x : Binary64) : Parts :=
  let biased := x.size / fractionUnit
  let fraction := x.size % fractionUnit
  if biased = 0 then
    { significand := fraction
      exponent := -1074
      atPowerOfTwo := false }
  else
    { significand := fractionUnit + fraction
      exponent := (biased : Int) - 1075
      atPowerOfTwo := fraction = 0 && 1 < biased }

end Binary64
end DocumentMapper
