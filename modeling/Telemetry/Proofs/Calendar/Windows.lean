import Telemetry.Proofs.Calendar.DayNumbers
import Telemetry.Granularity
import Mathlib

/-! The time windows of a granularity, numbered in the order of time. The window of a millisecond is
the last one that opens by then, and the decimal digits of windows ascend with their numbers, so
buckets are ordered as the windows that they name.
-/

namespace Telemetry

-----------------------------------------------------------------------------------------
-- Months
-----------------------------------------------------------------------------------------

namespace Date

/-- The number of the month that holds a day, counted from January of the year zero. -/
def monthNumber (number : Int) : Int :=
  (ofDayNumber number).year * 12 + (ofDayNumber number).month - 1

/-- The day number of the first day of a numbered month. -/
def monthOpening (months : Int) : Int :=
  dayNumber ⟨months / 12, months % 12 + 1, 1⟩

/-- The month after December is January of the next year. -/
theorem monthOpening_eq {year month : Int} (one : 1 ≤ month) (thirteen : month ≤ 13)
    : monthOpening (year * 12 + month - 1) = yearStart year + monthStart year month := by
  unfold monthOpening
  rcases Int.lt_or_eq_of_le thirteen with within | rfl
  · have years : (year * 12 + month - 1) / 12 = year := by omega
    have months : (year * 12 + month - 1) % 12 + 1 = month := by omega
    rw [years, months]
    dsimp only [dayNumber]
    omega
  · have years : (year * 12 + 13 - 1) / 12 = year + 1 := by omega
    have months : (year * 12 + 13 - 1) % 12 + 1 = 1 := by omega
    rw [years, months]
    dsimp only [dayNumber]
    rw [yearStart_succ, monthStart_one, monthStart_thirteen]
    omega

theorem monthOpening_succ (months : Int) : monthOpening months < monthOpening (months + 1) := by
  have here := @monthOpening_eq (months / 12) (months % 12 + 1) (by omega) (by omega)
  have next := @monthOpening_eq (months / 12) (months % 12 + 1 + 1) (by omega) (by omega)
  have numbers : months / 12 * 12 + (months % 12 + 1) - 1 = months
      ∧ months / 12 * 12 + (months % 12 + 1 + 1) - 1 = months + 1 := by omega
  rw [numbers.1] at here
  rw [numbers.2] at next
  have ordered := @monthStart_lt (months / 12) (months % 12 + 1) (months % 12 + 1 + 1) (by omega)
  omega

/-- A day lies in the month of its number. -/
theorem monthOpening_monthNumber (number : Int)
    : monthOpening (monthNumber number) ≤ number
      ∧ number < monthOpening (monthNumber number + 1)
      ∧ (ofDayNumber number).day = number - monthOpening (monthNumber number) + 1 := by
  obtain ⟨one, twelve, first, last, same⟩ := ofDayNumber_spec number
  have here := @monthOpening_eq (ofDayNumber number).year (ofDayNumber number).month one (by omega)
  have next := @monthOpening_eq (ofDayNumber number).year ((ofDayNumber number).month + 1)
    (by omega) (by omega)
  have number_succ : monthNumber number + 1
      = (ofDayNumber number).year * 12 + ((ofDayNumber number).month + 1) - 1 := by
    unfold monthNumber
    omega
  rw [number_succ, next, monthNumber, here]
  unfold dayNumber at same
  unfold daysInMonth at last
  omega

theorem monthNumber_mono {first second : Int} (h : first ≤ second)
    : monthNumber first ≤ monthNumber second := by
  by_contra later
  have months : monthNumber second + 1 ≤ monthNumber first := by omega
  have openings := (strictMono_int_of_lt_succ monthOpening_succ).monotone months
  have before := (monthOpening_monthNumber first).1
  have after := (monthOpening_monthNumber second).2.1
  omega

end Date

-----------------------------------------------------------------------------------------
-- Windows and when they open
-----------------------------------------------------------------------------------------

namespace Granularity

/-- The number of the window that holds a millisecond. -/
def window : Granularity → Int → Int
  | second, millis => millis / 1000
  | minute, millis => millis / 60000
  | hour, millis => millis / 3600000
  | day, millis => millis / millisPerDay
  | month, millis => Date.monthNumber (millis / millisPerDay)

/-- The first millisecond of a numbered window. -/
def opening : Granularity → Int → Int
  | second, number => number * 1000
  | minute, number => number * 60000
  | hour, number => number * 3600000
  | day, number => number * millisPerDay
  | month, number => Date.monthOpening number * millisPerDay

variable {granularity : Granularity}

/-- Windows open one after the other. -/
theorem opening_strictMono (granularity : Granularity) : StrictMono granularity.opening := by
  refine strictMono_int_of_lt_succ fun number => ?_
  cases granularity with
  | month =>
      have later := Date.monthOpening_succ number
      dsimp only [opening, millisPerDay]
      omega
  | _ =>
      dsimp only [opening, millisPerDay]
      omega

/-- The window of a millisecond has opened by then, and the next one opens later. -/
theorem opening_window (granularity : Granularity) (millis : Int)
    : granularity.opening (granularity.window millis) ≤ millis
      ∧ millis < granularity.opening (granularity.window millis + 1) := by
  cases granularity with
  | month =>
      obtain ⟨below, above, _⟩ := Date.monthOpening_monthNumber (millis / millisPerDay)
      dsimp only [opening, window, millisPerDay] at *
      omega
  | _ =>
      dsimp only [opening, window, millisPerDay]
      omega

/-- The window of a millisecond is the last one that has opened by then. -/
theorem opening_le_iff {number millis : Int}
    : granularity.opening number ≤ millis ↔ number ≤ granularity.window millis := by
  obtain ⟨below, above⟩ := granularity.opening_window millis
  constructor
  · intro reached
    by_contra beyond
    have next : granularity.window millis + 1 ≤ number := by omega
    have opened := granularity.opening_strictMono.monotone next
    omega
  · intro within
    exact Int.le_trans (granularity.opening_strictMono.monotone within) below

theorem lt_opening_iff {number millis : Int}
    : millis < granularity.opening number ↔ granularity.window millis < number := by
  rw [← Int.not_le, opening_le_iff, Int.not_le]

@[simp] theorem window_opening (granularity : Granularity) (number : Int)
    : granularity.window (granularity.opening number) = number := by
  have reached := granularity.opening_le_iff.mp (Int.le_refl (granularity.opening number))
  have opened := granularity.opening_le_iff.mpr (Int.le_refl
    (granularity.window (granularity.opening number)))
  have number_le := granularity.opening_strictMono.le_iff_le.mp opened
  omega

theorem window_mono {first second : Int} (h : first ≤ second)
    : granularity.window first ≤ granularity.window second :=
  opening_le_iff.mp (Int.le_trans (granularity.opening_window first).1 h)

-----------------------------------------------------------------------------------------
-- The digits of windows
-----------------------------------------------------------------------------------------

def monthDigits (number : Int) : Int :=
  number / 12 * 100 + (number % 12 + 1)

/-- The digits of a numbered day: those of its month, then the day of the month. -/
def dayDigits (number : Int) : Int :=
  monthDigits (Date.monthNumber number) * 100
    + (number - Date.monthOpening (Date.monthNumber number) + 1)

/-- The digits of a numbered part of something that has so many parts. -/
def partDigits (whole : Int → Int) (parts number : Int) : Int :=
  whole (number / parts) * 100 + number % parts

/-- The bucket of a numbered window. -/
def digits : Granularity → Int → Int
  | second => partDigits (partDigits (partDigits dayDigits 24) 60) 60
  | minute => partDigits (partDigits dayDigits 24) 60
  | hour => partDigits dayDigits 24
  | day => dayDigits
  | month => monthDigits

/-- Parts are fewer than a hundred, so two more digits keep the order. -/
theorem partDigits_strictMono {whole : Int → Int} (h : StrictMono whole) {parts : Int}
    (some : 0 < parts) (few : parts ≤ 100)
    : StrictMono (partDigits whole parts) := by
  intro first second lt
  have firstPart := Int.emod_nonneg first (Int.ne_of_gt some)
  have firstBound := Int.emod_lt_of_pos first some
  have secondPart := Int.emod_nonneg second (Int.ne_of_gt some)
  have firstSum := Int.mul_ediv_add_emod first parts
  have secondSum := Int.mul_ediv_add_emod second parts
  have wholes : first / parts ≤ second / parts := Int.ediv_le_ediv some (Int.le_of_lt lt)
  unfold partDigits
  rcases Int.lt_or_eq_of_le wholes with earlier | same
  · have digits := h earlier
    omega
  · rw [same] at firstSum ⊢
    omega

theorem monthDigits_strictMono : StrictMono monthDigits := by
  intro first second lt
  unfold monthDigits
  omega

/-- Days of a month are fewer than a hundred, so two more digits keep the order. -/
theorem dayDigits_strictMono : StrictMono dayDigits := by
  intro first second lt
  have months := Date.monthNumber_mono (Int.le_of_lt lt)
  obtain ⟨_, _, firstDay⟩ := Date.monthOpening_monthNumber first
  obtain ⟨below, _, _⟩ := Date.monthOpening_monthNumber second
  obtain ⟨_, _, _, bound, _⟩ := Date.ofDayNumber_spec first
  have few := Date.daysInMonth_le (Date.ofDayNumber first).year (Date.ofDayNumber first).month
  unfold dayDigits
  rcases Int.lt_or_eq_of_le months with earlier | same
  · have digits := monthDigits_strictMono earlier
    omega
  · rw [same]
    omega

/-- Later windows have greater digits. -/
theorem digits_strictMono (granularity : Granularity) : StrictMono granularity.digits := by
  have hours := @partDigits_strictMono _ dayDigits_strictMono 24 (by decide) (by decide)
  have minutes := @partDigits_strictMono _ hours 60 (by decide) (by decide)
  cases granularity with
  | second => exact partDigits_strictMono minutes (by decide) (by decide)
  | minute => exact minutes
  | hour => exact hours
  | day => exact dayDigits_strictMono
  | month => exact monthDigits_strictMono

theorem monthDigits_monthNumber (number : Int)
    : monthDigits (Date.monthNumber number)
      = (Date.ofDayNumber number).year * 100 + (Date.ofDayNumber number).month := by
  obtain ⟨one, twelve, _⟩ := Date.ofDayNumber_spec number
  unfold monthDigits Date.monthNumber
  omega

theorem dayDigits_eq (number : Int)
    : dayDigits number
      = ((Date.ofDayNumber number).year * 100 + (Date.ofDayNumber number).month) * 100
        + (Date.ofDayNumber number).day := by
  rw [dayDigits, monthDigits_monthNumber, (Date.monthOpening_monthNumber number).2.2]

/-- The bucket of an instant spells the number of its window. -/
theorem bucket_eq_digits (granularity : Granularity) (instant : Instant)
    : granularity.bucket instant = granularity.digits (granularity.window instant.millis) := by
  have hours : instant.millis / 3600000 / 24 = instant.millis / millisPerDay
      ∧ instant.hour = instant.millis / 3600000 % 24 := by
    unfold Instant.hour Instant.secondOfDay millisPerDay
    omega
  have minutes : instant.millis / 60000 / 60 = instant.millis / 3600000
      ∧ instant.minute = instant.millis / 60000 % 60 := by
    unfold Instant.minute Instant.secondOfDay millisPerDay
    omega
  have seconds : instant.millis / 1000 / 60 = instant.millis / 60000
      ∧ instant.second = instant.millis / 1000 % 60 := by
    unfold Instant.second Instant.secondOfDay millisPerDay
    omega
  have days := dayDigits_eq (instant.millis / millisPerDay)
  have months := monthDigits_monthNumber (instant.millis / millisPerDay)
  cases granularity <;>
    simp only [bucket, digits, window, partDigits, Instant.date, Instant.dayNumber, hours, minutes,
      seconds, days, months]

/-- Buckets are ordered as the windows of their instants. -/
theorem bucket_le_bucket_iff {first second : Instant}
    : granularity.bucket first ≤ granularity.bucket second
      ↔ granularity.window first.millis ≤ granularity.window second.millis := by
  rw [bucket_eq_digits, bucket_eq_digits, granularity.digits_strictMono.le_iff_le]

end Granularity

end Telemetry
