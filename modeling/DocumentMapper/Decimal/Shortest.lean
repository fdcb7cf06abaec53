import DocumentMapper.Decimal.Binary64

/-!
# Shortest decimals

The decimal with the fewest digits that still reads back as a given double, and
among those the nearest to it.

A decimal reads back as a number when it lies in the interval of reals that
round to that number; the ends belong to the interval when the significand is
even.  If a point of a decimal grid lies in the interval, so does one of the two
grid points next to the number, so grids are tried from coarse to fine and only
those two points of each are looked at.
-/

namespace DocumentMapper
namespace Decimal

/-- Where to go when the two nearest candidates are equally near. -/
inductive Tie where
  | toEven
  | up
deriving DecidableEq

structure Scaled where
  digits : Nat
  exponent : Int
deriving DecidableEq

structure Ratio where
  numerator : Nat
  denominator : Nat

def Ratio.ofPowers (count : Nat) (binary decimal : Int) : Ratio :=
  { numerator := count * Nat.pow 2 binary.toNat * Nat.pow 10 (-decimal).toNat
    denominator := Nat.pow 2 (-binary).toNat * Nat.pow 10 decimal.toNat }

def digitCount (n : Nat) : Nat :=
  (toString n).length

def leadingExponent (count : Nat) (binary : Int) : Int :=
  if 0 <= binary then
    digitCount (count * Nat.pow 2 binary.toNat) - 1
  else
    let places := (-binary).toNat
    (digitCount (count * Nat.pow 5 places) : Int) - 1 - places

/-!
## One grid

Numbers are measured in quarters of the last binary place, so that the ends of
the interval are whole: two quarters away, or one on the side of a power of two.
-/

def readsBack (parts : Binary64.Parts) (grid : Int) (point : Nat) : Bool :=
  let quarter := Ratio.ofPowers 1 (parts.exponent - 2) grid
  let place := point * quarter.denominator
  let low := 4 * parts.significand - (if parts.atPowerOfTwo then 1 else 2)
  let high := 4 * parts.significand + 2
  if parts.significand % 2 = 0 then
    low * quarter.numerator <= place && place <= high * quarter.numerator
  else
    low * quarter.numerator < place && place < high * quarter.numerator

/-- The nearest point of the grid that reads back, if one does. -/
def candidate? (tie : Tie) (parts : Binary64.Parts) (grid : Int) : Option Nat :=
  let value := Ratio.ofPowers parts.significand parts.exponent grid
  let below := value.numerator / value.denominator
  let above := below + 1
  let past := 2 * (value.numerator % value.denominator)
  let preferAbove :=
    value.denominator < past ||
      (past = value.denominator && (tie = .up || below % 2 = 1))
  match readsBack parts grid below, readsBack parts grid above with
  | true, true => some (if preferAbove then above else below)
  | true, false => some below
  | false, true => some above
  | false, false => none

/-!
## All grids
-/

def Scaled.reduce : Nat -> Scaled -> Scaled
  | 0, x =>
      x
  | fuel + 1, x =>
      if x.digits ≠ 0 ∧ x.digits % 10 = 0 then
        reduce fuel { digits := x.digits / 10, exponent := x.exponent + 1 }
      else
        x

/-- Seventeen digits always suffice for a double. -/
def enoughDigits : Nat :=
  17

def shortest (tie : Tie) (x : Binary64) : Scaled :=
  let parts := x.parts
  if parts.significand = 0 then
    { digits := 0, exponent := 0 }
  else
    let leading := leadingExponent parts.significand parts.exponent
    let found :=
      (List.range enoughDigits).findSome? fun (extra : Nat) =>
        let grid := leading - (extra : Int)
        (candidate? tie parts grid).map fun digits =>
          { digits := digits, exponent := grid : Scaled }
    match found with
    | some decimal => decimal.reduce (enoughDigits + 1)
    | none => { digits := 0, exponent := 0 }

end Decimal
end DocumentMapper
