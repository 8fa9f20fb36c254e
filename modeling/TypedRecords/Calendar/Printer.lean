import TypedRecords.Calendar.Day
import TypedRecords.Text.Digits
/-!
# Writing dates and timestamps

Dates are `YYYY-MM-DD`, timestamps RFC 3339 in UTC with no fraction, milliseconds or microseconds,
whichever is exact and shortest.
-/

namespace TypedRecords.Calendar

open Text (padDigits digitsOf)

def twoDigits (n : Nat) : List Char := padDigits 2 (digitsOf n)

/-- Four digits; years outside 0 to 9999 carry a sign. -/
def yearText (year : Int) : List Char :=
  if 0 ≤ year ∧ year ≤ 9999 then padDigits 4 (digitsOf year.natAbs)
  else (if year < 0 then '-' else '+') :: padDigits 4 (digitsOf year.natAbs)

def CivilDate.chars (d : CivilDate) : List Char :=
  yearText d.year ++ '-' :: twoDigits d.month ++ '-' :: twoDigits d.day

def dateText? (days : Int) : Option String :=
  if minDay ≤ days ∧ days ≤ maxDay then some (String.ofList (CivilDate.ofDayNumber days).chars)
  else none

def fractionText (micros : Nat) : List Char :=
  if micros = 0 then []
  else if micros % 1000 = 0 then '.' :: padDigits 3 (digitsOf (micros / 1000))
  else '.' :: padDigits 6 (digitsOf micros)

def clockText (micros : Nat) : List Char :=
  let seconds := micros / 1000000
  twoDigits (seconds / 3600) ++ ':' :: twoDigits (seconds / 60 % 60) ++ ':' ::
    twoDigits (seconds % 60) ++ fractionText (micros % 1000000)

def timestampText? (micros : Int) : Option String :=
  let days := micros / microsPerDay
  if minDay ≤ days ∧ days ≤ maxDay then
    some (String.ofList ((CivilDate.ofDayNumber days).chars ++ 'T' ::
      (clockText (micros % microsPerDay).toNat ++ ['Z'])))
  else none

end TypedRecords.Calendar
