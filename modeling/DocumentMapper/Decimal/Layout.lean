import DocumentMapper.Decimal.Shortest

/-!
# Decimal layouts

How a shortest decimal is laid out as text: which sizes are written with a point
alone and which with an exponent, and whether a whole number keeps its point.
-/

namespace DocumentMapper
namespace Decimal

/-- The decisions of one written form of doubles. -/
structure Layout where
  tie : Tie
  /-- The least and the greatest exponent of the leading digit for which no
  exponent is written. -/
  plainFrom : Int
  plainTo : Int
  /-- A whole number ends in `.0`. -/
  keepsPoint : Bool

def digitsText (n : Nat) : String :=
  toString n

def zeros (count : Nat) : String :=
  String.ofList (List.replicate count '0')

def splitDigits (count : Nat) (digits : String) : String × String :=
  (String.ofList (digits.toList.take count), String.ofList (digits.toList.drop count))

def joinPoint (whole fraction : String) : String :=
  if fraction.isEmpty then whole else whole ++ "." ++ fraction

def plainText (keepsPoint : Bool) (x : Scaled) : String :=
  let digits := digitsText x.digits
  if 0 <= x.exponent then
    joinPoint (digits ++ zeros x.exponent.toNat) (if keepsPoint then "0" else "")
  else
    let places := (-x.exponent).toNat
    let filled := zeros (places + 1 - digits.length) ++ digits
    let split := splitDigits (filled.length - places) filled
    joinPoint split.1 split.2

def exponentText (exponent : Int) : String :=
  if exponent < 0 then
    "e-" ++ toString exponent.natAbs
  else
    "e+" ++ toString exponent.natAbs

def scientificText (leading : Int) (x : Scaled) : String :=
  let split := splitDigits 1 (digitsText x.digits)
  joinPoint split.1 split.2 ++ exponentText leading

def Scaled.text (layout : Layout) (x : Scaled) : String :=
  let leading := x.exponent + (digitCount x.digits : Int) - 1
  if layout.plainFrom <= leading && leading <= layout.plainTo then
    plainText layout.keepsPoint x
  else
    scientificText leading x

def Layout.text (layout : Layout) (x : Binary64) : String :=
  if x.isNaN then
    "NaN"
  else
    let sign := if x.isNegative then "-" else ""
    if x.isFinite then
      sign ++ (shortest layout.tie x).text layout
    else
      sign ++ "inf"

end Decimal
end DocumentMapper
