/-!
# Days of the Gregorian calendar

A day is counted from 1970-01-01. Years run from March to February in the arithmetic, so that the leap
day is the last of its year, and 400 years are one period of 146097 days.
-/

namespace TypedRecords.Calendar

structure CivilDate where
  year : Int
  month : Nat
  day : Nat
  deriving DecidableEq, Repr

def minYear : Int := -262143
def maxYear : Int := 262142

def isLeapYear (year : Int) : Bool := year % 4 == 0 && (year % 100 != 0 || year % 400 == 0)

def daysInMonth (year : Int) (month : Nat) : Nat :=
  if month = 2 then (if isLeapYear year then 29 else 28)
  else if month = 4 ∨ month = 6 ∨ month = 9 ∨ month = 11 then 30
  else 31

namespace CivilDate

/-- A day of the calendar within the years that can be written. -/
def IsValid (d : CivilDate) : Prop :=
  (minYear ≤ d.year ∧ d.year ≤ maxYear) ∧ (1 ≤ d.month ∧ d.month ≤ 12) ∧
    (1 ≤ d.day ∧ d.day ≤ daysInMonth d.year d.month)

instance (d : CivilDate) : Decidable d.IsValid := inferInstanceAs (Decidable (_ ∧ _ ∧ _))

/-- Days from the first of March of year 0 to 1970-01-01. -/
def epochOffset : Int := 719468

def dayNumber (d : CivilDate) : Int :=
  let year := if d.month ≤ 2 then d.year - 1 else d.year
  let yearOfPeriod := (year % 400).toNat
  let dayOfYear := (153 * ((d.month + 9) % 12) + 2) / 5 + d.day - 1
  let dayOfPeriod := yearOfPeriod * 365 + yearOfPeriod / 4 - yearOfPeriod / 100 + dayOfYear
  year / 400 * 146097 + dayOfPeriod - epochOffset

def ofDayNumber (days : Int) : CivilDate :=
  let shifted := days + epochOffset
  let dayOfPeriod := (shifted % 146097).toNat
  let yearOfPeriod :=
    (dayOfPeriod - dayOfPeriod / 1460 + dayOfPeriod / 36524 - dayOfPeriod / 146096) / 365
  let dayOfYear := dayOfPeriod - (365 * yearOfPeriod + yearOfPeriod / 4 - yearOfPeriod / 100)
  let marchMonth := (5 * dayOfYear + 2) / 153
  let month := if marchMonth < 10 then marchMonth + 3 else marchMonth - 9
  let year := shifted / 146097 * 400 + yearOfPeriod
  ⟨if month ≤ 2 then year + 1 else year, month, dayOfYear - (153 * marchMonth + 2) / 5 + 1⟩

end CivilDate

def minDay : Int := CivilDate.dayNumber ⟨minYear, 1, 1⟩
def maxDay : Int := CivilDate.dayNumber ⟨maxYear, 12, 31⟩

def microsPerSecond : Int := 1000000
def microsPerDay : Int := 86400 * microsPerSecond

end TypedRecords.Calendar
