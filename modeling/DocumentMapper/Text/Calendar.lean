/-!
# Moments as text

A moment is a count of milliseconds from the start of 1970, in universal time.
It is written as a date of the proleptic Gregorian calendar, a time of day and
the offset from universal time, which is always zero.
-/

namespace DocumentMapper
namespace Text

structure CivilDate where
  year : Int
  month : Int
  day : Int
deriving DecidableEq

/-!
## Counting days

Years are counted from March, so that the leap day is the last of its year, in
eras of four hundred years, after which the calendar repeats.
-/

def daysInEra : Int :=
  146097

def CivilDate.ofDays (days : Int) : CivilDate :=
  let shifted := days + 719468
  let era := Int.fdiv shifted daysInEra
  let dayOfEra := Int.fmod shifted daysInEra
  let yearOfEra :=
    (dayOfEra - dayOfEra / 1460 + dayOfEra / 36524 - dayOfEra / 146096) / 365
  let dayOfYear :=
    dayOfEra - (365 * yearOfEra + yearOfEra / 4 - yearOfEra / 100)
  let monthFromMarch := (5 * dayOfYear + 2) / 153
  let month := if monthFromMarch < 10 then monthFromMarch + 3 else monthFromMarch - 9
  { year := yearOfEra + era * 400 + (if month <= 2 then 1 else 0)
    month := month
    day := dayOfYear - (153 * monthFromMarch + 2) / 5 + 1 }

/-!
## Writing
-/

def padded (width : Nat) (n : Nat) : String :=
  let digits := toString n
  String.ofList (List.replicate (width - digits.length) '0') ++ digits

/-- Four digits, with a sign before the year zero. -/
def yearText (year : Int) : String :=
  if year < 0 then
    "-" ++ padded 4 year.natAbs
  else
    padded 4 year.natAbs

def lastYear : Nat :=
  9999

/-- The digits after the point: at least one, and no zero at the end of more. -/
def fractionText (millis : Nat) : String :=
  if millis % 100 = 0 then
    toString (millis / 100)
  else if millis % 10 = 0 then
    padded 2 (millis / 10)
  else
    padded 3 millis

def CivilDate.text (date : CivilDate) : String :=
  yearText date.year ++ "-" ++ padded 2 date.month.toNat ++ "-" ++
    padded 2 date.day.toNat

def millisInDay : Int :=
  86400000

/-- A moment in a year of more than four digits is written as its count of
milliseconds. -/
def momentText (millis : Int) : String :=
  let date := CivilDate.ofDays (Int.fdiv millis millisInDay)
  if lastYear < date.year.natAbs then
    toString millis
  else
    let time := (Int.fmod millis millisInDay).toNat
    date.text ++ " " ++ toString (time / 3600000) ++ ":" ++
      padded 2 (time / 60000 % 60) ++ ":" ++ padded 2 (time / 1000 % 60) ++
      "." ++ fractionText (time % 1000) ++ " +00:00:00"

end Text
end DocumentMapper
