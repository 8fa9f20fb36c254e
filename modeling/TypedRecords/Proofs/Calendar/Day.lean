import Mathlib.Tactic.ByContra
import TypedRecords.Calendar.Day
/-!
# Laws of the calendar

Days are numbered in the order of the calendar. Every day of the years that can be written has a number, and
every number between the first and the last of them is that of such a day.
-/

namespace TypedRecords.Calendar.CivilDate

variable {d : CivilDate}

/-- The year that began in the last March. -/
def marchYear (d : CivilDate) : Int := if d.month ≤ 2 then d.year - 1 else d.year

/-- Days since the first of March. -/
def dayOfYear (d : CivilDate) : Nat := (153 * ((d.month + 9) % 12) + 2) / 5 + d.day - 1

def yearStart (year : Int) : Int :=
  365 * year + year / 4 - year / 100 + year / 400 - epochOffset

theorem day_number_eq (d : CivilDate) : d.dayNumber = yearStart d.marchYear + d.dayOfYear := by
  simp only [dayNumber, yearStart, marchYear, dayOfYear]
  generalize (if d.month ≤ 2 then d.year - 1 else d.year) = year
  omega

theorem year_start_mono {a b : Int} (h : a ≤ b) : yearStart a ≤ yearStart b := by
  simp only [yearStart]
  omega

theorem min_day_eq : minDay = yearStart (minYear - 1) + 306 := by decide

theorem max_day_eq : maxDay = yearStart maxYear + 305 := by decide

/-- January and February close the year that began in March. -/
theorem IsValid.day_of_year (h : d.IsValid) :
    d.month ≤ 2 ∧ 306 ≤ d.dayOfYear ∧ d.dayOfYear ≤ 365 ∨ 3 ≤ d.month ∧ d.dayOfYear ≤ 305 := by
  obtain ⟨-, ⟨hm1, hm12⟩, hd1, hd⟩ := h
  obtain ⟨year, month, day⟩ := d
  simp only [dayOfYear, daysInMonth] at *
  have hmonths : month = 1 ∨ month = 2 ∨ month = 3 ∨ month = 4 ∨ month = 5 ∨ month = 6 ∨ month = 7 ∨
      month = 8 ∨ month = 9 ∨ month = 10 ∨ month = 11 ∨ month = 12 := by omega
  rcases hmonths with rfl | rfl | rfl | rfl | rfl | rfl | rfl | rfl | rfl | rfl | rfl | rfl <;>
    simp at hd <;> first | omega | (split at hd <;> omega)

theorem IsValid.bounds (h : d.IsValid) : minDay ≤ d.dayNumber ∧ d.dayNumber ≤ maxDay := by
  have hyear := h.1
  rw [day_number_eq, min_day_eq, max_day_eq, marchYear]
  rcases h.day_of_year with ⟨hm, hlow, hhigh⟩ | ⟨hm, hhigh⟩
  · rw [if_pos hm]
    have hstart := year_start_mono (show minYear - 1 ≤ d.year - 1 by omega)
    have hend := year_start_mono (show d.year - 1 ≤ maxYear - 1 by omega)
    have hlast : yearStart (maxYear - 1) + 365 ≤ yearStart maxYear + 305 := by decide
    omega
  · rw [if_neg (by omega)]
    have hstart := year_start_mono hyear.1
    have hend := year_start_mono hyear.2
    have hfirst : yearStart (minYear - 1) + 306 ≤ yearStart minYear := by decide
    omega

/-- The first day of a year within its period of 400 years, and the first day behind it. -/
def startInPeriod (year : Nat) : Nat := 365 * year + year / 4 - year / 100

def endInPeriod (year : Nat) : Nat := if year = 399 then 146097 else startInPeriod (year + 1)

def yearOfPeriod (day : Nat) : Nat := (day - day / 1460 + day / 36524 - day / 146096) / 365

theorem leap_days_mono {a b : Nat} (h : a ≤ b) :
    a - a / 1460 + a / 36524 - a / 146096 ≤ b - b / 1460 + b / 36524 - b / 146096 := by
  have hquarter (n : Nat) : n / 146096 = n / 36524 / 4 := (Nat.div_div_eq_div_mul n 36524 4).symm
  have hcent : a / 36524 ≤ b / 36524 := Nat.div_le_div_right h
  rw [hquarter a, hquarter b]
  omega

theorem year_limits : ∀ year < 400,
    365 * year ≤ startInPeriod year - startInPeriod year / 1460 + startInPeriod year / 36524 -
      startInPeriod year / 146096 ∧
    (endInPeriod year - 1) - (endInPeriod year - 1) / 1460 + (endInPeriod year - 1) / 36524 -
      (endInPeriod year - 1) / 146096 < 365 * year + 365 := by
  decide +kernel

theorem year_of_period_eq {year day : Nat} (hy : year < 400) (hstart : startInPeriod year ≤ day)
    (hend : day < endInPeriod year) : yearOfPeriod day = year := by
  obtain ⟨hlow, hhigh⟩ := year_limits year hy
  have hs := leap_days_mono hstart
  have he := leap_days_mono (show day ≤ endInPeriod year - 1 by omega)
  unfold yearOfPeriod
  omega

theorem exists_year {day : Nat} (h : day < 146097) :
    ∃ year < 400, startInPeriod year ≤ day ∧ day < endInPeriod year := by
  have hbelow : ∀ n ≤ 399, day < startInPeriod n → ∃ year < n, startInPeriod year ≤ day ∧
      day < startInPeriod (year + 1) := by
    intro n
    induction n with
    | zero => simp [startInPeriod]
    | succ n ih =>
      intro hn hday
      by_cases hlt : day < startInPeriod n
      · obtain ⟨year, hyear, hbounds⟩ := ih (by omega) hlt
        exact ⟨year, by omega, hbounds⟩
      · exact ⟨n, by omega, by omega, hday⟩
  by_cases hlast : day < startInPeriod 399
  · obtain ⟨year, hyear, hbounds⟩ := hbelow 399 (Nat.le_refl _) hlast
    refine ⟨year, by omega, hbounds.1, ?_⟩
    rw [endInPeriod, if_neg (by omega)]
    exact hbounds.2
  · exact ⟨399, by omega, by omega, h⟩

/-- Only leap years end with a 366th day. -/
theorem year_lengths : ∀ year < 400, endInPeriod year = startInPeriod year + 365 ∨
    endInPeriod year = startInPeriod year + 366 ∧ isLeapYear (year + 1 : Int) = true := by
  decide +kernel

def marchMonth (dayOfYear : Nat) : Nat := (5 * dayOfYear + 2) / 153

def monthOf (dayOfYear : Nat) : Nat :=
  if marchMonth dayOfYear < 10 then marchMonth dayOfYear + 3 else marchMonth dayOfYear - 9

def dayOf (dayOfYear : Nat) : Nat := dayOfYear - (153 * marchMonth dayOfYear + 2) / 5 + 1

/-- The month and the day of each day of the year; the 29th of February is the last one. -/
theorem month_table : ∀ n < 366, (1 ≤ monthOf n ∧ monthOf n ≤ 12) ∧ (1 ≤ dayOf n) ∧
    (n < 365 ∧ dayOf n ≤ daysInMonth 1 (monthOf n) ∨ n = 365 ∧ monthOf n = 2 ∧ dayOf n = 29) ∧
    (153 * ((monthOf n + 9) % 12) + 2) / 5 + dayOf n - 1 = n ∧ (monthOf n ≤ 2 ↔ 306 ≤ n) := by
  decide +kernel

theorem days_in_month_le (year : Int) (month : Nat) : daysInMonth 1 month ≤ daysInMonth year month := by
  have hone : isLeapYear 1 = false := by decide
  unfold daysInMonth
  rw [hone]
  repeat' split
  all_goals first | omega | contradiction

structure Position (days : Int) where
  period : Int
  year : Nat
  day : Nat
  year_lt : year < 400
  day_lt : startInPeriod year + day < endInPeriod year
  number : days + epochOffset = period * 146097 + (startInPeriod year + day : Nat)

theorem exists_position (days : Int) : Nonempty (Position days) := by
  obtain ⟨year, hyear, hstart, hend⟩ := exists_year (show ((days + epochOffset) % 146097).toNat < 146097 by omega)
  exact ⟨⟨(days + epochOffset) / 146097, year, ((days + epochOffset) % 146097).toNat - startInPeriod year,
    hyear, by omega, by omega⟩⟩

variable {days : Int}

theorem Position.day_le (p : Position days) : p.day < 366 := by
  have := p.day_lt
  rcases year_lengths p.year p.year_lt with h | ⟨h, -⟩ <;> omega

theorem Position.year_start (p : Position days) :
    days = yearStart (p.period * 400 + p.year) + p.day := by
  have hy := p.year_lt
  have hn := p.number
  simp only [startInPeriod, yearStart, epochOffset] at *
  omega

theorem Position.civil_date (p : Position days) : ofDayNumber days =
    ⟨if monthOf p.day ≤ 2 then p.period * 400 + p.year + 1 else p.period * 400 + p.year,
      monthOf p.day, dayOf p.day⟩ := by
  have hy := p.year_lt
  have hn := p.number
  have hd := p.day_lt
  have hend : endInPeriod p.year ≤ 146097 := by
    unfold endInPeriod startInPeriod
    split <;> omega
  have hmod : ((days + epochOffset) % 146097).toNat = startInPeriod p.year + p.day := by omega
  have hdiv : (days + epochOffset) / 146097 = p.period := by omega
  have hyear : yearOfPeriod (startInPeriod p.year + p.day) = p.year :=
    year_of_period_eq hy (Nat.le_add_right _ _) hd
  have hday : startInPeriod p.year + p.day - (365 * p.year + p.year / 4 - p.year / 100) = p.day :=
    Nat.add_sub_cancel_left ..
  unfold yearOfPeriod at hyear
  simp only [ofDayNumber, hmod, hdiv, hyear, hday, monthOf, dayOf, marchMonth]
  rfl

theorem day_number_of_day_number (days : Int) : (ofDayNumber days).dayNumber = days := by
  obtain ⟨p⟩ := exists_position days
  obtain ⟨-, -, -, hday, hmonth⟩ := month_table p.day p.day_le
  rw [day_number_eq, p.civil_date, dayOfYear, marchYear]
  dsimp only
  rw [hday]
  split
  · rw [Int.add_sub_cancel]
    exact p.year_start.symm
  · exact p.year_start.symm

theorem is_leap_year_period (k year : Int) : isLeapYear (k * 400 + year) = isLeapYear year := by
  have h4 : (k * 400 + year) % 4 = year % 4 := by omega
  have h100 : (k * 400 + year) % 100 = year % 100 := by omega
  have h400 : (k * 400 + year) % 400 = year % 400 := by omega
  simp only [isLeapYear, h4, h100, h400]

/-- The year of a day between the first and the last that can be written; January and February count to the next. -/
theorem Position.year_bounds (p : Position days) (hmin : minDay ≤ days) (hmax : days ≤ maxDay) :
    (306 ≤ p.day → minYear ≤ p.period * 400 + p.year + 1 ∧ p.period * 400 + p.year + 1 ≤ maxYear) ∧
      (p.day < 306 → minYear ≤ p.period * 400 + p.year ∧ p.period * 400 + p.year ≤ maxYear) := by
  have hdays := p.year_start
  have hle := p.day_le
  rw [min_day_eq] at hmin
  rw [max_day_eq] at hmax
  generalize p.period * 400 + (p.year : Int) = year at hdays
  have hfirst : yearStart (minYear - 2) + 365 < yearStart (minYear - 1) + 306 := by decide
  have hlast : yearStart maxYear + 305 < yearStart (maxYear + 1) := by decide
  have hlow : minYear - 1 ≤ year := by
    by_contra hlt
    have := year_start_mono (show year ≤ minYear - 2 by omega)
    omega
  have hhigh : year ≤ maxYear := by
    by_contra hlt
    have := year_start_mono (show maxYear + 1 ≤ year by omega)
    omega
  refine ⟨fun h306 => ⟨by omega, ?_⟩, fun h306 => ⟨?_, hhigh⟩⟩
  · by_contra hlt
    obtain rfl : year = maxYear := by omega
    omega
  · by_contra hlt
    obtain rfl : year = minYear - 1 := by omega
    omega

theorem of_day_number_valid (hmin : minDay ≤ days) (hmax : days ≤ maxDay) : (ofDayNumber days).IsValid := by
  obtain ⟨p⟩ := exists_position days
  obtain ⟨hm, hd1, hd, -, hmonth⟩ := month_table p.day p.day_le
  obtain ⟨hclosing, hopening⟩ := p.year_bounds hmin hmax
  rw [p.civil_date]
  refine ⟨?_, hm, hd1, ?_⟩
  · dsimp only
    split
    · next hm2 => exact hclosing (hmonth.mp hm2)
    · next hm2 => exact hopening (Nat.lt_of_not_le fun h => hm2 (hmonth.mpr h))
  · rcases hd with ⟨-, hd⟩ | ⟨hlast, hfeb, h29⟩
    · exact Nat.le_trans hd (days_in_month_le _ _)
    · rcases year_lengths p.year p.year_lt with hlen | ⟨-, hleap⟩
      · have := p.day_lt
        omega
      · have hleap' : isLeapYear (p.period * 400 + p.year + 1) = true := by
          rw [Int.add_assoc, is_leap_year_period, hleap]
        simp [daysInMonth, hfeb, h29, hleap']

end TypedRecords.Calendar.CivilDate
