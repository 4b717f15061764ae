import Telemetry.Calendar

/-! Day numbers and dates determine each other. Years and months follow each other without gaps, so
the year and the month that a day number is found in are the ones that hold it, and later days have
later dates.
-/

namespace Telemetry.Date

-----------------------------------------------------------------------------------------
-- Years
-----------------------------------------------------------------------------------------

def daysInYear (year : Int) : Int :=
  if isLeapYear year then 366 else 365

theorem yearStart_succ (year : Int) : yearStart (year + 1) = yearStart year + daysInYear year := by
  unfold yearStart daysInYear isLeapYear
  split
  next leap =>
    simp only [Bool.and_eq_true, Bool.or_eq_true, beq_iff_eq, bne_iff_ne] at leap
    omega
  next common =>
    simp only [Bool.and_eq_true, Bool.or_eq_true, beq_iff_eq, bne_iff_ne] at common
    omega

/-- The year of a day number holds it, as the guess from the mean length is off by one at most. -/
theorem yearStart_yearOf (number : Int)
    : yearStart (yearOf number) ≤ number ∧ number < yearStart (yearOf number + 1) := by
  have lower : yearStart (400 * number / 146097 + 1970 - 1) ≤ number := by
    unfold yearStart
    omega
  have upper : number < yearStart (400 * number / 146097 + 1970 + 1 + 1) := by
    unfold yearStart
    omega
  unfold yearOf
  dsimp only
  split
  next before => exact ⟨lower, by rwa [Int.sub_add_cancel]⟩
  next notBefore =>
    split
    next within => exact ⟨Int.not_lt.mp notBefore, within⟩
    next after => exact ⟨Int.not_lt.mp after, upper⟩

theorem yearStart_lt {first second : Int} (h : first < second)
    : yearStart first < yearStart second := by
  unfold yearStart
  omega

theorem yearStart_le {first second : Int} (h : first ≤ second)
    : yearStart first ≤ yearStart second := by
  rcases Int.lt_or_eq_of_le h with lt | eq
  · exact Int.le_of_lt (yearStart_lt lt)
  · exact Int.le_of_eq (congrArg _ eq)

theorem yearOf_eq {number year : Int} (lower : yearStart year ≤ number)
    (upper : number < yearStart (year + 1))
    : yearOf number = year := by
  obtain ⟨below, above⟩ := yearStart_yearOf number
  rcases Int.lt_trichotomy (yearOf number) year with earlier | same | later
  · have ordered := yearStart_le (Int.add_one_le_of_lt earlier)
    omega
  · exact same
  · have ordered := yearStart_le (Int.add_one_le_of_lt later)
    omega

-----------------------------------------------------------------------------------------
-- Months
-----------------------------------------------------------------------------------------

theorem februaryGap_eq (year : Int)
    : (februaryGap year = 1 ∨ februaryGap year = 2)
      ∧ daysInYear year = 367 - februaryGap year := by
  unfold februaryGap daysInYear
  cases isLeapYear year
  · exact ⟨.inr rfl, rfl⟩
  · exact ⟨.inl rfl, rfl⟩

theorem monthStart_one (year : Int) : monthStart year 1 = 0 := rfl

theorem monthStart_thirteen (year : Int) : monthStart year 13 = daysInYear year :=
  (februaryGap_eq year).2.symm

theorem monthStart_lt {year first second : Int} (h : first < second)
    : monthStart year first < monthStart year second := by
  have gap := (februaryGap_eq year).1
  unfold monthStart
  split <;> split <;> omega

theorem monthStart_le {year first second : Int} (h : first ≤ second)
    : monthStart year first ≤ monthStart year second := by
  rcases Int.lt_or_eq_of_le h with lt | eq
  · exact Int.le_of_lt (monthStart_lt lt)
  · exact Int.le_of_eq (congrArg _ eq)

/-- The month of a day of a year holds it. -/
theorem monthStart_monthOf {year dayOfYear : Int} (first : 0 ≤ dayOfYear)
    (last : dayOfYear < daysInYear year)
    : 1 ≤ monthOf year dayOfYear ∧ monthOf year dayOfYear ≤ 12
      ∧ monthStart year (monthOf year dayOfYear) ≤ dayOfYear
      ∧ dayOfYear < monthStart year (monthOf year dayOfYear + 1) := by
  obtain ⟨gap, days⟩ := februaryGap_eq year
  have march : monthStart year 3 = 61 - februaryGap year := rfl
  rw [days] at last
  unfold monthOf
  rw [march]
  unfold monthStart
  generalize februaryGap year = lacking at *
  split <;> split <;> split <;> omega

theorem monthOf_eq {year month dayOfYear : Int} (one : 1 ≤ month) (twelve : month ≤ 12)
    (lower : monthStart year month ≤ dayOfYear) (upper : dayOfYear < monthStart year (month + 1))
    : monthOf year dayOfYear = month := by
  have first : 0 ≤ dayOfYear := Int.le_trans (monthStart_le one) lower
  have last : dayOfYear < daysInYear year := by
    rw [← monthStart_thirteen]
    exact Int.lt_of_lt_of_le upper (monthStart_le (by omega))
  obtain ⟨_, _, below, above⟩ := monthStart_monthOf first last
  rcases Int.lt_trichotomy (monthOf year dayOfYear) month with earlier | same | later
  · have ordered := @monthStart_le year _ _ (Int.add_one_le_of_lt earlier)
    omega
  · exact same
  · have ordered := @monthStart_le year _ _ (Int.add_one_le_of_lt later)
    omega

-----------------------------------------------------------------------------------------
-- Days
-----------------------------------------------------------------------------------------

/-- The date of a day number has a month, a day of that month, and that day number. -/
theorem ofDayNumber_spec (number : Int)
    : 1 ≤ (ofDayNumber number).month ∧ (ofDayNumber number).month ≤ 12
      ∧ 1 ≤ (ofDayNumber number).day
      ∧ (ofDayNumber number).day
        ≤ daysInMonth (ofDayNumber number).year (ofDayNumber number).month
      ∧ (ofDayNumber number).dayNumber = number := by
  obtain ⟨below, above⟩ := yearStart_yearOf number
  rw [yearStart_succ] at above
  have first : 0 ≤ number - yearStart (yearOf number) := by omega
  have last : number - yearStart (yearOf number) < daysInYear (yearOf number) := by omega
  obtain ⟨one, twelve, start, stop⟩ := monthStart_monthOf first last
  unfold ofDayNumber daysInMonth dayNumber
  dsimp only
  omega

/-- A date with a month and a day of that month is the date of its day number. -/
theorem ofDayNumber_dayNumber {date : Date} (one : 1 ≤ date.month) (twelve : date.month ≤ 12)
    (first : 1 ≤ date.day) (last : date.day ≤ daysInMonth date.year date.month)
    : ofDayNumber date.dayNumber = date := by
  obtain ⟨year, month, day⟩ := date
  dsimp only [daysInMonth] at one twelve first last
  have start : 0 ≤ monthStart year month := monthStart_le one
  have stop : monthStart year (month + 1) ≤ daysInYear year := by
    rw [← monthStart_thirteen]
    exact monthStart_le (by omega)
  have number : dayNumber ⟨year, month, day⟩ - yearStart year = monthStart year month + day - 1 := by
    dsimp only [dayNumber]
    omega
  have inYear : yearOf (dayNumber ⟨year, month, day⟩) = year := by
    refine yearOf_eq (by omega) ?_
    rw [yearStart_succ]
    omega
  have inMonth : monthOf year (monthStart year month + day - 1) = month :=
    monthOf_eq one twelve (by omega) (by omega)
  unfold ofDayNumber
  dsimp only
  rw [inYear, number, inMonth, Date.mk.injEq]
  exact ⟨rfl, rfl, by omega⟩

theorem daysInMonth_le (year month : Int) : daysInMonth year month ≤ 31 := by
  have gap := (februaryGap_eq year).1
  unfold daysInMonth monthStart
  split <;> split <;> omega

end Telemetry.Date
