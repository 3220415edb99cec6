-- SUMMARY: Seconds and calendar times: the calendar time of a number of seconds is valid, and is that number of seconds.
import Mathlib.Tactic.Common

/-!
# Calendar times

Days are counted from the first of March of the year 0, so that the day a leap year has more is
its last. A cycle of 400 years has 146097 days, a century 36524 and four years 1461, save for the
last ones of each.
-/

namespace Calendar

structure Date where
  year : Int
  month : Int
  day : Int
deriving DecidableEq

structure CalendarTime extends Date where
  hour : Int
  minute : Int
  second : Int
deriving DecidableEq

structure Date.Valid (d : Date) : Prop where
  month : 1 ≤ d.month ∧ d.month ≤ 12
  day : 1 ≤ d.day ∧ d.day ≤ 31

structure CalendarTime.Valid (c : CalendarTime) : Prop where
  date : c.toDate.Valid
  hour : 0 ≤ c.hour ∧ c.hour ≤ 23
  minute : 0 ≤ c.minute ∧ c.minute ≤ 59
  second : 0 ≤ c.second ∧ c.second ≤ 59

/-! ## Years -/

/-- The days before the first of March of a year. -/
def daysBefore (year : Int) : Int := 365 * year + year / 4 - year / 100 + year / 400

/-- The year, from March to February, that a day is in. -/
def yearOf (days : Int) : Int :=
  let inCycle := days % 146097
  let century := min (inCycle / 36524) 3
  let inCentury := inCycle - 36524 * century
  let fourYears := min (inCentury / 1461) 24
  let inFourYears := inCentury - 1461 * fourYears
  400 * (days / 146097) + 100 * century + 4 * fourYears + min (inFourYears / 365) 3

/-- A year by its cycle, its century, its four years and its place in them. -/
theorem daysBefore_eq {cycle century fourYears rest : Int} (hcentury : 0 ≤ century ∧ century ≤ 3)
    (hfour : 0 ≤ fourYears ∧ fourYears ≤ 24) (hrest : 0 ≤ rest ∧ rest ≤ 3) :
    daysBefore (400 * cycle + 100 * century + 4 * fourYears + rest) =
      146097 * cycle + 36524 * century + 1461 * fourYears + 365 * rest := by
  rw [daysBefore]
  omega

/-- A day is one of the first 366 of its year. -/
theorem daysBefore_yearOf (days : Int) :
    0 ≤ days - daysBefore (yearOf days) ∧ days - daysBefore (yearOf days) ≤ 365 := by
  have hcycle : 0 ≤ days % 146097 ∧ days % 146097 < 146097 := by omega
  have hdays := Int.mul_ediv_add_emod days 146097
  rw [yearOf]
  generalize days / 146097 = cycle at *
  generalize days % 146097 = inCycle at *
  obtain ⟨century, hcentury⟩ : ∃ century, century = min (inCycle / 36524) 3 := ⟨_, rfl⟩
  obtain ⟨inCentury, hinCentury⟩ : ∃ d, d = inCycle - 36524 * century := ⟨_, rfl⟩
  obtain ⟨fourYears, hfour⟩ : ∃ f, f = min (inCentury / 1461) 24 := ⟨_, rfl⟩
  obtain ⟨rest, hrest⟩ : ∃ r, r = min ((inCentury - 1461 * fourYears) / 365) 3 := ⟨_, rfl⟩
  rw [← hcentury, ← hinCentury, ← hfour, ← hrest,
    daysBefore_eq (by omega) (by omega) (by omega)]
  omega

/-! ## Months -/

/-- The days from the first of March to the first of a month, counted from March. -/
def daysBeforeMonth (month : Int) : Int := (153 * month + 2) / 5

/-- The month, counted from March, that a day of the year is in. -/
def monthOf (dayOfYear : Int) : Int := (5 * dayOfYear + 2) / 153

theorem monthOf_mem {dayOfYear : Int} (h : 0 ≤ dayOfYear ∧ dayOfYear ≤ 365) :
    0 ≤ monthOf dayOfYear ∧ monthOf dayOfYear ≤ 11 := by
  rw [monthOf]
  omega

/-- A day is one of the first 31 of its month. -/
theorem daysBeforeMonth_monthOf (dayOfYear : Int) :
    0 ≤ dayOfYear - daysBeforeMonth (monthOf dayOfYear) ∧
      dayOfYear - daysBeforeMonth (monthOf dayOfYear) ≤ 30 := by
  rw [daysBeforeMonth, monthOf]
  omega

/-! ## Days -/

/-- The days from the first of March of the year 0 to the first of January 1970. -/
def epoch : Int := 719468

/-- The date of a day, the first of January 1970 being 0. -/
def ofDays (days : Int) : Date :=
  let year := yearOf (days + epoch)
  let dayOfYear := days + epoch - daysBefore year
  let month := monthOf dayOfYear
  let day := dayOfYear - daysBeforeMonth month + 1
  if month < 10 then ⟨year, month + 3, day⟩ else ⟨year + 1, month - 9, day⟩

/-- January and February are months of the year before. -/
def toDays (d : Date) : Int :=
  let days := if 3 ≤ d.month then daysBefore d.year + daysBeforeMonth (d.month - 3)
    else daysBefore (d.year - 1) + daysBeforeMonth (d.month + 9)
  days + (d.day - 1) - epoch

theorem valid_ofDays (days : Int) : (ofDays days).Valid := by
  have hmonth := monthOf_mem (daysBefore_yearOf (days + epoch))
  have hday := daysBeforeMonth_monthOf (days + epoch - daysBefore (yearOf (days + epoch)))
  unfold ofDays
  dsimp only
  split
  · exact ⟨by dsimp only; omega, by dsimp only; omega⟩
  · exact ⟨by dsimp only; omega, by dsimp only; omega⟩

theorem toDays_ofDays (days : Int) : toDays (ofDays days) = days := by
  have hmonth := monthOf_mem (daysBefore_yearOf (days + epoch))
  unfold ofDays
  dsimp only
  split
  · rw [toDays, if_pos (by dsimp only; omega)]
    simp only [Int.add_sub_cancel]
    omega
  · rw [toDays, if_neg (by dsimp only; omega)]
    simp only [Int.add_sub_cancel, Int.sub_add_cancel]
    omega

/-! ## Seconds -/

/-- The time at a number of seconds since the first of January 1970. -/
def ofSeconds (seconds : Int) : CalendarTime where
  toDate := ofDays (seconds / 86400)
  hour := seconds % 86400 / 3600
  minute := seconds % 3600 / 60
  second := seconds % 60

def toSeconds (c : CalendarTime) : Int :=
  86400 * toDays c.toDate + 3600 * c.hour + 60 * c.minute + c.second

theorem valid_ofSeconds (seconds : Int) : (ofSeconds seconds).Valid where
  date := valid_ofDays _
  hour := by
    simp only [ofSeconds]
    omega
  minute := by
    simp only [ofSeconds]
    omega
  second := by
    simp only [ofSeconds]
    omega

theorem toSeconds_ofSeconds (seconds : Int) : toSeconds (ofSeconds seconds) = seconds := by
  simp only [toSeconds, ofSeconds, toDays_ofDays]
  omega

example : ofSeconds 951782399 = ⟨⟨2000, 2, 28⟩, 23, 59, 59⟩ := by decide

example : ofSeconds (-1) = ⟨⟨1969, 12, 31⟩, 23, 59, 59⟩ := by decide

end Calendar
