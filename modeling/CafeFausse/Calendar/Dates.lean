import Mathlib.Tactic

/-! # The calendar

The Gregorian calendar, extended to all years, and its days counted from the first of January
1970.
-/

namespace CafeFausse.Calendar

/-- The year has a 29th of February. -/
def isLeap (year : ℤ) : Prop := year % 4 = 0 ∧ (year % 100 ≠ 0 ∨ year % 400 = 0)

instance (year : ℤ) : Decidable (isLeap year) := instDecidableAnd

def daysInMonth (year month : ℤ) : ℤ :=
  if month = 2 then if isLeap year then 29 else 28
  else if month = 4 ∨ month = 6 ∨ month = 9 ∨ month = 11 then 30
  else 31

/-- A date. -/
@[ext]
structure Date where
  year : ℤ
  month : ℤ
  day : ℤ
  month_valid : 1 ≤ month ∧ month ≤ 12
  day_valid : 1 ≤ day ∧ day ≤ daysInMonth year month
  deriving DecidableEq

/-- The days from the first of January of the year 1 to that of another. -/
def daysBeforeYear (year : ℤ) : ℤ :=
  (year - 1) * 365 + (year - 1) / 4 - (year - 1) / 100 + (year - 1) / 400

/-- The days of a year before a month. -/
def daysBeforeMonth (year month : ℤ) : ℤ :=
  ((List.range (month - 1).toNat).map fun m => daysInMonth year (m + 1)).sum

/-- The number of a date. -/
def Date.toDay (d : Date) : ℤ :=
  daysBeforeYear d.year + daysBeforeMonth d.year d.month + (d.day - 1) - 719162

/-- The days before a month, in closed form: the months from March on repeat every five. -/
theorem daysBeforeMonth_eq {year month : ℤ} (h : 1 ≤ month ∧ month ≤ 12) :
    daysBeforeMonth year month =
      if month ≤ 2 then 31 * (month - 1)
      else (153 * (month - 3) + 2) / 5 + 59 + if isLeap year then 1 else 0 := by
  obtain ⟨hlo, hhi⟩ := h
  by_cases hleap : isLeap year
  all_goals
    interval_cases month <;>
      simp [daysBeforeMonth, daysInMonth, List.range_succ, hleap]

/-- A leap year is a day longer. -/
theorem daysBeforeYear_succ (year : ℤ) :
    daysBeforeYear (year + 1) = daysBeforeYear year + 365 + if isLeap year then 1 else 0 := by
  unfold daysBeforeYear
  by_cases h : isLeap year
  all_goals
    simp only [h, if_true, if_false]
    unfold isLeap at h
    omega

/-- The place of a day among years that begin in March, so that a leap day is the last of
its year: the blocks of 400, 100, 4 years and one year before it, and the days of its year. -/
structure MarchDay where
  era : ℤ
  century : ℤ
  quad : ℤ
  single : ℤ
  dayOfYear : ℤ
  century_valid : 0 ≤ century ∧ century ≤ 3
  quad_valid : 0 ≤ quad ∧ quad ≤ 24
  single_valid : 0 ≤ single ∧ single ≤ 3
  dayOfYear_valid : 0 ≤ dayOfYear ∧ dayOfYear ≤ 365
  /-- Only the last year of a block of four can have a leap day, and of a century only the last
  of four. -/
  leap_valid : dayOfYear = 365 → single = 3 ∧ (quad < 24 ∨ century = 3)

namespace MarchDay

/-- The days from the first of March of the year 0. -/
def days (m : MarchDay) : ℤ :=
  m.era * 146097 + m.century * 36524 + m.quad * 1461 + m.single * 365 + m.dayOfYear

def year (m : MarchDay) : ℤ := m.era * 400 + m.century * 100 + m.quad * 4 + m.single

def ofDays (n : ℤ) : MarchDay :=
  let century := min (n % 146097 / 36524) 3
  let ofCentury := n % 146097 - century * 36524
  let single := min (ofCentury % 1461 / 365) 3
  { era := n / 146097
    century
    quad := ofCentury / 1461
    single
    dayOfYear := ofCentury % 1461 - single * 365
    century_valid := by omega
    quad_valid := by omega
    single_valid := by omega
    dayOfYear_valid := by omega
    leap_valid := by omega }

theorem days_ofDays (n : ℤ) : (ofDays n).days = n := by
  unfold days ofDays
  simp only
  omega

/-- The days before the January of a year that begins in March. -/
theorem daysBeforeYear_year (m : MarchDay) :
    daysBeforeYear (m.year + 1) = m.days - m.dayOfYear := by
  obtain ⟨era, c, q, y, r, hc, hq, hy, hr, -⟩ := m
  simp only [daysBeforeYear, year, days, add_sub_cancel_right]
  have h4 : (era * 400 + c * 100 + q * 4 + y) / 4 = era * 100 + c * 25 + q := by omega
  have h100 : (era * 400 + c * 100 + q * 4 + y) / 100 = era * 4 + c := by omega
  have h400 : (era * 400 + c * 100 + q * 4 + y) / 400 = era := by omega
  rw [h4, h100, h400]
  ring

theorem isLeap_of_dayOfYear (m : MarchDay) (h : m.dayOfYear = 365) : isLeap (m.year + 1) := by
  obtain ⟨era, c, q, y, r, hc, hq, hy, hr, hleap⟩ := m
  obtain ⟨rfl, hleap⟩ := hleap h
  unfold isLeap year
  simp only
  omega

/-- The month, counted from March on. -/
def month (m : MarchDay) : ℤ := (5 * m.dayOfYear + 2) / 153

theorem month_valid (m : MarchDay) : 0 ≤ m.month ∧ m.month ≤ 11 := by
  have := m.dayOfYear_valid
  unfold month
  omega

/-- The day of the month. -/
def day (m : MarchDay) : ℤ := m.dayOfYear - (153 * m.month + 2) / 5 + 1

theorem day_valid (m : MarchDay) : 1 ≤ m.day ∧ m.day ≤
    if m.month < 10 then daysInMonth m.year (m.month + 3)
    else daysInMonth (m.year + 1) (m.month - 9) := by
  have hr := m.dayOfYear_valid
  have hleap := m.isLeap_of_dayOfYear
  have hmonth := m.month_valid
  unfold day
  generalize hm : m.month = month at *
  unfold MarchDay.month at hm
  refine ⟨by omega, ?_⟩
  obtain ⟨hlo, hhi⟩ := hmonth
  interval_cases month <;> simp only [daysInMonth] <;> norm_num <;> try omega
  -- February has its 29th day only in a leap year
  split
  · omega
  · next h =>
    have : m.dayOfYear ≠ 365 := fun hr => h (hleap hr)
    omega

/-- The date of a day. -/
def date (m : MarchDay) : Date where
  year := if m.month < 10 then m.year else m.year + 1
  month := if m.month < 10 then m.month + 3 else m.month - 9
  day := m.day
  month_valid := by
    have := m.month_valid
    split <;> omega
  day_valid := by
    have := m.day_valid
    split <;> simp_all

theorem toDay_date (m : MarchDay) : m.date.toDay = m.days - 719468 := by
  have hmonth := m.month_valid
  have hyear := m.daysBeforeYear_year
  have hsucc := daysBeforeYear_succ m.year
  unfold Date.toDay
  rw [daysBeforeMonth_eq m.date.month_valid]
  unfold date day
  by_cases h : m.month < 10
  · simp only [h, if_true]
    rw [if_neg (by omega), show m.month + 3 - 3 = m.month by omega]
    omega
  · have : m.month = 10 ∨ m.month = 11 := by omega
    rcases this with h' | h' <;> simp only [h'] <;> norm_num <;> omega

end MarchDay

/-- The date of a number. -/
def ofDay (n : ℤ) : Date := (MarchDay.ofDays (n + 719468)).date

theorem toDay_ofDay (n : ℤ) : (ofDay n).toDay = n := by
  unfold ofDay
  rw [MarchDay.toDay_date, MarchDay.days_ofDays, add_sub_cancel_right]

/-- A date is a day of its year. -/
theorem Date.toDay_bounds (d : Date) : daysBeforeYear d.year ≤ d.toDay + 719162 ∧
    d.toDay + 719162 < daysBeforeYear (d.year + 1) := by
  obtain ⟨year, month, day, hmonth, hday⟩ := d
  simp only [Date.toDay, daysBeforeMonth_eq hmonth, daysBeforeYear_succ]
  obtain ⟨hlo, hhi⟩ := hmonth
  by_cases hleap : isLeap year
  all_goals
    simp only [daysInMonth, hleap, if_true, if_false] at hday ⊢
    split_ifs at hday ⊢ <;> omega

/-- The dates of a range of years are a range of days. -/
theorem year_ofDay_le {n year : ℤ} (h : n + 719162 < daysBeforeYear (year + 1)) :
    (ofDay n).year ≤ year := by
  obtain ⟨hlo, -⟩ := (ofDay n).toDay_bounds
  rw [toDay_ofDay] at hlo
  unfold daysBeforeYear at *
  omega

theorem le_year_ofDay {n year : ℤ} (h : daysBeforeYear year ≤ n + 719162) :
    year ≤ (ofDay n).year := by
  obtain ⟨-, hhi⟩ := (ofDay n).toDay_bounds
  rw [toDay_ofDay] at hhi
  unfold daysBeforeYear at *
  omega

end CafeFausse.Calendar
