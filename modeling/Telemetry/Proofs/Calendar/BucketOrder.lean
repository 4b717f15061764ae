import Telemetry.Proofs.Calendar.BucketRanges

/-! The order of buckets is the order of time. Later instants have later buckets, a bucket is that of
one calendar second, minute, hour, day or month, and the windows of later buckets start after those
of earlier ones have ended, also in negative years. The digits are computed within 64 bits.
-/

namespace Telemetry

-----------------------------------------------------------------------------------------
-- Numbers of 64 bits
-----------------------------------------------------------------------------------------

def FitsWord (number : Int) : Prop :=
  Int64.minValue.toInt ≤ number ∧ number ≤ Int64.maxValue.toInt

instance : DecidablePred FitsWord :=
  fun number => inferInstanceAs (Decidable (_ ≤ number ∧ number ≤ _))

/-- A computed number, unless it does not fit 64 bits. -/
def word? (number : Int) : Option Int :=
  if FitsWord number then some number else none

theorem word?_eq_some {number : Int} (h : FitsWord number) : word? number = some number :=
  if_pos h

/-- Two more digits after others, unless a step does not fit 64 bits. -/
def appendDigits? (front part : Int) : Option Int := do
  let shifted ← word? (front * 100)
  word? (shifted + part)

theorem appendDigits?_eq_some {front part : Int} (lower : Int64.minValue.toInt ≤ front * 100)
    (upper : front * 100 + 99 ≤ Int64.maxValue.toInt) (positive : 0 ≤ part) (few : part < 100)
    : appendDigits? front part = some (front * 100 + part) := by
  have shifted : FitsWord (front * 100) := ⟨lower, by omega⟩
  have appended : FitsWord (front * 100 + part) := ⟨by omega, by omega⟩
  simp only [appendDigits?, word?_eq_some shifted, Option.bind_eq_bind, Option.bind_some,
    word?_eq_some appended]

/-- What is left of a number when digits are cut off is no farther from zero. -/
theorem FitsWord.cut {number : Int} (h : FitsWord number) {divisor : Int} (positive : 0 < divisor)
    : FitsWord (number.tdiv divisor) ∧ FitsWord (number.tmod divisor) := by
  have quotient := Int.natAbs_tdiv_le_natAbs number divisor
  have remainder : (number.tmod divisor).natAbs ≤ number.natAbs := by
    rw [Int.natAbs_tmod]
    exact Nat.mod_le _ _
  -- The least number has no opposite, so the sign matters as well.
  have signs (negative : number ≤ 0) : number.tdiv divisor ≤ 0 ∧ number.tmod divisor ≤ 0 := by
    have opposite : 0 ≤ -number := by omega
    have cut := Int.tdiv_nonneg opposite (Int.le_of_lt positive)
    have rest := Int.tmod_nonneg divisor opposite
    rw [Int.neg_tdiv] at cut
    rw [Int.neg_tmod] at rest
    omega
  unfold FitsWord at *
  rw [Int64.toInt_minValue, Int64.toInt_maxValue] at *
  omega

namespace Granularity

variable {granularity : Granularity} {earlier later start otherStart : Instant}
variable {label other : Int}

/-- The bucket of an instant computed in 64 bits, unless a step on the way to it does not fit. -/
def wordBucket? (granularity : Granularity) (instant : Instant) : Option Int := do
  let months ← appendDigits? instant.date.year instant.date.month
  if granularity = month then
    return months
  let days ← appendDigits? months instant.date.day
  let hours ← appendDigits? days instant.hour
  let minutes ← appendDigits? hours instant.minute
  match granularity with
  | month => return months
  | day => return days
  | hour => return hours
  | minute => return minutes
  | second => appendDigits? minutes instant.second

/-- No step on the way to a bucket leaves 64 bits. -/
theorem wordBucket?_eq_some (granularity : Granularity) (instant : Instant)
    : granularity.wordBucket? instant = some (granularity.bucket instant) := by
  obtain ⟨one, twelve, first, last, _⟩ := date_bounds instant
  obtain ⟨hourOfDay, minuteOfHour, secondOfMinute⟩ := clock_bounds instant
  have few := Date.daysInMonth_le instant.date.year instant.date.month
  have firstYear := instant.firstYear_le
  have lastYear := instant.year_le
  have append {front : Granularity} {part : Int} (positive : 0 ≤ part) (small : part < 100)
      : appendDigits? (front.bucket instant) part = some (front.bucket instant * 100 + part) :=
    appendDigits?_eq_some (front.bucket_bounds instant).1 (front.bucket_bounds instant).2 positive
      small
  have months : appendDigits? instant.date.year instant.date.month
      = some (month.bucket instant) := by
    unfold Date.firstYear at firstYear
    unfold Date.lastYear at lastYear
    refine appendDigits?_eq_some ?_ ?_ (by omega) (by omega)
    · rw [Int64.toInt_minValue]
      omega
    · rw [Int64.toInt_maxValue]
      omega
  have days : appendDigits? (month.bucket instant) instant.date.day = some (day.bucket instant) :=
    append (by omega) (by omega)
  have hours : appendDigits? (day.bucket instant) instant.hour = some (hour.bucket instant) :=
    append (by omega) (by omega)
  have minutes : appendDigits? (hour.bucket instant) instant.minute
      = some (minute.bucket instant) :=
    append (by omega) (by omega)
  have seconds : appendDigits? (minute.bucket instant) instant.second
      = some (second.bucket instant) :=
    append (by omega) (by omega)
  cases granularity <;> simp [wordBucket?, months, days, hours, minutes, seconds]

-----------------------------------------------------------------------------------------
-- Instants and windows in order
-----------------------------------------------------------------------------------------

/-- Whether two instants lie in the same calendar second, minute, hour, day or month. -/
def SharePeriod : Granularity → Instant → Instant → Prop
  | month, a, b => a.date.year = b.date.year ∧ a.date.month = b.date.month
  | day, a, b => a.date = b.date
  | hour, a, b => a.date = b.date ∧ a.hour = b.hour
  | minute, a, b => a.date = b.date ∧ a.hour = b.hour ∧ a.minute = b.minute
  | second, a, b =>
      a.date = b.date ∧ a.hour = b.hour ∧ a.minute = b.minute ∧ a.second = b.second

/-- A bucket is that of one calendar period, since every field but the year has two digits. -/
theorem bucket_eq_bucket_iff
    : granularity.bucket earlier = granularity.bucket later
      ↔ granularity.SharePeriod earlier later := by
  obtain ⟨_, _, _, _, _⟩ := date_bounds earlier
  obtain ⟨_, _, _, _, _⟩ := date_bounds later
  obtain ⟨_, _, _⟩ := clock_bounds earlier
  obtain ⟨_, _, _⟩ := clock_bounds later
  have few := Date.daysInMonth_le earlier.date.year earlier.date.month
  have fewLater := Date.daysInMonth_le later.date.year later.date.month
  have dates : earlier.date = later.date ↔ earlier.date.year = later.date.year
      ∧ earlier.date.month = later.date.month ∧ earlier.date.day = later.date.day := by
    cases earlier.date
    cases later.date
    simp
  cases granularity <;> simp only [SharePeriod, bucket, dates] <;> omega

/-- Buckets of windows are ordered as the windows, of which one ends before the next one starts. -/
theorem lt_iff_windowEnd_lt (named : granularity.windowStart? label = some start)
    (namedOther : granularity.windowStart? other = some otherStart)
    : label < other ↔ granularity.windowEnd start < otherStart.millis := by
  have stop := opening_succ named
  have reached := @opening_le_iff granularity (granularity.window start.millis + 1)
    otherStart.millis
  rw [stop] at reached
  rw [← (windowStart?_eq_some named).1, ← (windowStart?_eq_some namedOther).1, bucket_eq_digits,
    bucket_eq_digits, granularity.digits_strictMono.lt_iff_lt, windowEnd]
  omega

/-- Later instants have buckets that are not earlier, and equal ones exactly in the same calendar
period. Of two buckets with starts the window of the lesser one ends before that of the greater one
starts. No step on the way to a bucket leaves 64 bits, nor does what is cut off from a bucket.
-/
theorem buckets_ascend_with_time (granularity : Granularity)
    : (∀ earlier later : Instant, earlier.millis ≤ later.millis →
        granularity.bucket earlier ≤ granularity.bucket later)
      ∧ (∀ earlier later : Instant, granularity.bucket earlier = granularity.bucket later
          ↔ granularity.SharePeriod earlier later)
      ∧ (∀ label other start otherStart, granularity.windowStart? label = some start →
          granularity.windowStart? other = some otherStart →
            (label < other ↔ granularity.windowEnd start < otherStart.millis))
      ∧ (∀ instant, granularity.wordBucket? instant = some (granularity.bucket instant))
      ∧ ∀ label, FitsWord label → ∀ skipped, 0 < skipped →
          FitsWord (label.tdiv skipped) ∧ FitsWord (label.tmod skipped) := by
  refine ⟨?_, ?_, ?_, granularity.wordBucket?_eq_some, ?_⟩
  · exact fun earlier later ordered => bucket_le_bucket_iff.mpr (granularity.window_mono ordered)
  · exact fun earlier later => bucket_eq_bucket_iff
  · exact fun label other start otherStart => lt_iff_windowEnd_lt
  · exact fun label fits skipped => fits.cut

/-- The last millisecond before the year zero has the bucket of a negative year, which is less than
all later ones though it ends with the digits of December.
-/
example : Granularity.second.bucket ⟨-62167219200001, by decide⟩ = -8768764041 := by decide

end Granularity

end Telemetry
