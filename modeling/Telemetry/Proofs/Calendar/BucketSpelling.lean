import Telemetry.Proofs.Calendar.WindowStarts

/-! Which integers are buckets, and of which instants. A bucket with a start spells the fields of a
time of day from the year zero on and is the bucket of the instants of its window alone. Windows of
finer granularities lie within those of coarser ones, so starts can be taken one after the other.
-/

namespace Telemetry

-----------------------------------------------------------------------------------------
-- Times of day on the calendar
-----------------------------------------------------------------------------------------

namespace Date

/-- A valid date lies between the first and the last day of the calendar. -/
theorem dayNumber_bounds {date : Date} (valid : date.isValid = true)
    : -96465292 ≤ date.dayNumber ∧ date.dayNumber ≤ 95026236 := by
  simp only [isValid, Bool.and_eq_true, decide_eq_true_eq] at valid
  obtain ⟨⟨⟨⟨⟨firstYear, lastYear⟩, one⟩, twelve⟩, positive⟩, within⟩ := valid
  have start := yearStart_le firstYear
  have stop : yearStart (date.year + 1) ≤ yearStart (Date.lastYear + 1) :=
    yearStart_le (by omega)
  have known : yearStart Date.firstYear = -96465292 ∧ yearStart (Date.lastYear + 1) = 95026237 := by
    decide
  have january := @monthStart_le date.year _ _ one
  have december : monthStart date.year (date.month + 1) ≤ daysInYear date.year := by
    rw [← monthStart_thirteen]
    exact monthStart_le (by omega)
  rw [monthStart_one] at january
  rw [yearStart_succ] at stop
  unfold daysInMonth at within
  unfold dayNumber
  omega

end Date

/-- Whether a date and a time of day exist. -/
structure IsClockReading (date : Date) (hours minutes seconds : Int) : Prop where
  valid : date.isValid = true
  hour : 0 ≤ hours ∧ hours < 24
  minute : 0 ≤ minutes ∧ minutes < 60
  second : 0 ≤ seconds ∧ seconds < 60

namespace Instant

variable {date : Date} {hours minutes seconds : Int}

/-- Every time of day of a valid date is an instant. -/
theorem exists_ofClock? (reading : IsClockReading date hours minutes seconds)
    : ∃ instant, ofClock? date hours minutes seconds = some instant := by
  obtain ⟨valid, hour, minute, second⟩ := reading
  have days := Date.dayNumber_bounds valid
  have bounds : -8334601228800000
        ≤ date.dayNumber * millisPerDay + (hours * 3600 + minutes * 60 + seconds) * 1000
      ∧ date.dayNumber * millisPerDay + (hours * 3600 + minutes * 60 + seconds) * 1000
        ≤ 8210266876799999 := by
    unfold millisPerDay
    omega
  exact ⟨⟨_, bounds⟩, ofClock?_eq_of_valid valid hour minute second rfl⟩

theorem firstYear_le (instant : Instant) : Date.firstYear ≤ instant.date.year := by
  by_contra earlier
  have stop := (Date.yearStart_yearOf instant.dayNumber).2
  have years : Date.yearOf instant.dayNumber + 1 ≤ Date.firstYear := by
    have same : instant.date.year = Date.yearOf instant.dayNumber := rfl
    omega
  have ordered := Date.yearStart_le years
  have known : Date.yearStart Date.firstYear = -96465292 := by decide
  have bound := instant.onCalendar.1
  unfold dayNumber millisPerDay at *
  omega

/-- The fields of an instant are a date and a time of day that exist. -/
theorem isClockReading (instant : Instant)
    : IsClockReading instant.date instant.hour instant.minute instant.second := by
  obtain ⟨one, twelve, first, last, _⟩ := Granularity.date_bounds instant
  obtain ⟨hour, minute, second⟩ := Granularity.clock_bounds instant
  refine ⟨?_, hour, minute, second⟩
  simp only [Date.isValid, Bool.and_eq_true, decide_eq_true_eq]
  exact ⟨⟨⟨⟨⟨instant.firstYear_le, instant.year_le⟩, one⟩, twelve⟩, first⟩, last⟩

end Instant

namespace Granularity

variable {granularity finer coarser : Granularity} {label : Int} {start instant : Instant}

-----------------------------------------------------------------------------------------
-- The integers that are buckets
-----------------------------------------------------------------------------------------

/-- The decimal digits of the fields that a granularity keeps, year first and two for every other
field.
-/
def spell (date : Date) (hours minutes seconds : Int) : Granularity → Int
  | month => date.year * 100 + date.month
  | day => (date.year * 100 + date.month) * 100 + date.day
  | hour => ((date.year * 100 + date.month) * 100 + date.day) * 100 + hours
  | minute => (((date.year * 100 + date.month) * 100 + date.day) * 100 + hours) * 100 + minutes
  | second =>
      ((((date.year * 100 + date.month) * 100 + date.day) * 100 + hours) * 100 + minutes) * 100
        + seconds

theorem bucket_eq_spell (granularity : Granularity) (instant : Instant)
    : granularity.bucket instant
      = granularity.spell instant.date instant.hour instant.minute instant.second := by
  cases granularity <;> rfl

/-- The bucket of a window that starts at all is that of a year from the year zero on. -/
theorem year_of_windowStart? (h : granularity.windowStart? label = some start)
    : 0 ≤ start.date.year := by
  by_contra negative
  have none := floor?_eq_none granularity (Int.not_le.mp negative)
  rw [floor?, (windowStart?_eq_some h).1, h] at none
  cases none

/-- The integers that name windows spell dates and times of day from the year zero on. -/
theorem exists_windowStart?_iff
    : (∃ start, granularity.windowStart? label = some start)
      ↔ ∃ date hours minutes seconds, IsClockReading date hours minutes seconds
          ∧ 0 ≤ date.year ∧ granularity.spell date hours minutes seconds = label := by
  constructor
  · rintro ⟨start, named⟩
    refine ⟨_, _, _, _, start.isClockReading, year_of_windowStart? named, ?_⟩
    rw [← bucket_eq_spell, (windowStart?_eq_some named).1]
  · rintro ⟨date, hours, minutes, seconds, reading, year, rfl⟩
    obtain ⟨instant, read⟩ := Instant.exists_ofClock? reading
    obtain ⟨_, rfl, rfl, rfl, rfl, _⟩ := Instant.ofClock?_eq_some read
    obtain ⟨start, found, _⟩ := floor?_eq_some granularity year
    exact ⟨start, bucket_eq_spell granularity instant ▸ found⟩

-----------------------------------------------------------------------------------------
-- The instants of a bucket
-----------------------------------------------------------------------------------------

/-- Two instants have the same bucket if they lie in the same window. -/
theorem bucket_inj {first second : Instant}
    : granularity.bucket first = granularity.bucket second
      ↔ granularity.window first.millis = granularity.window second.millis := by
  rw [bucket_eq_digits, bucket_eq_digits, granularity.digits_strictMono.injective.eq_iff]

/-- A bucket with a start is that of the instants from the start up to the next window. -/
theorem bucket_eq_iff (h : granularity.windowStart? label = some start)
    : granularity.bucket instant = label
      ↔ start.millis ≤ instant.millis
        ∧ instant.millis < start.millis + granularity.windowLength start := by
  obtain ⟨rfl, opened⟩ := windowStart?_eq_some h
  rw [bucket_inj, ← opening_succ h, lt_opening_iff]
  have reached := @opening_le_iff granularity (granularity.window start.millis) instant.millis
  rw [← opened] at reached
  rw [reached]
  omega

/-- The start of the window of an instant is the last start that is not after the instant. -/
theorem le_of_windowStart? (floor : granularity.floor? instant = some start) {other : Instant}
    (h : granularity.windowStart? label = some other) (reached : other.millis ≤ instant.millis)
    : other.millis ≤ start.millis := by
  have same := (windowStart?_eq_some floor).1
  obtain ⟨_, opened⟩ := windowStart?_eq_some h
  rw [bucket_inj] at same
  rw [opened, opening_le_iff, same]
  exact granularity.window_mono reached

-----------------------------------------------------------------------------------------
-- Finer and coarser windows
-----------------------------------------------------------------------------------------

/-- The place of a granularity among all, finest first. -/
def rank (granularity : Granularity) : Nat :=
  all.idxOf granularity

/-- Where a coarser window opens, a finer one opens. -/
theorem opening_window_opening (h : finer.rank ≤ coarser.rank) (number : Int)
    : finer.opening (finer.window (coarser.opening number)) = coarser.opening number := by
  cases finer <;> cases coarser <;>
    first
    | exact absurd h (by decide)
    | exact congrArg _ (window_opening _ number)
    | dsimp only [opening, window, millisPerDay]; omega

/-- The finer window of a millisecond opens in the coarser window of it. -/
theorem window_opening_window (h : finer.rank ≤ coarser.rank) (millis : Int)
    : coarser.window (finer.opening (finer.window millis)) = coarser.window millis := by
  refine Int.le_antisymm (coarser.window_mono (finer.opening_window millis).1) ?_
  rw [← opening_le_iff, ← opening_window_opening h]
  exact finer.opening_strictMono.monotone
    (finer.window_mono (coarser.opening_window millis).1)

/-- The coarser window starts at the same instant for the start of a finer one. -/
theorem floor?_floor? (h : finer.rank ≤ coarser.rank) (floor : finer.floor? instant = some start)
    : coarser.floor? start = coarser.floor? instant := by
  obtain ⟨same, opened⟩ := windowStart?_eq_some floor
  rw [bucket_inj] at same
  have window : coarser.window start.millis = coarser.window instant.millis := by
    rw [opened, same, window_opening_window h]
  rw [floor?, bucket_inj.mpr window, floor?]

/-- Buckets and the starts of windows determine each other. A bucket with a start is the bucket of
exactly the instants from the start up to the next window. An instant of the year zero or later has
such a bucket, and the start of it is the last one not after the instant, its own start, and in the
same window of every coarser granularity. An instant of a negative year has none. An integer names a
window exactly if it spells a date and a time of day that exist, from the year zero on.
-/
theorem buckets_name_windows (granularity : Granularity)
    : (∀ label start, granularity.windowStart? label = some start →
        granularity.bucket start = label
        ∧ ∀ instant, granularity.bucket instant = label
            ↔ start.millis ≤ instant.millis
              ∧ instant.millis < start.millis + granularity.windowLength start)
      ∧ (∀ instant, 0 ≤ instant.date.year →
          ∃ start, granularity.windowStart? (granularity.bucket instant) = some start
            ∧ granularity.floor? instant = some start
            ∧ start.millis ≤ instant.millis
            ∧ (∀ label other, granularity.windowStart? label = some other →
                other.millis ≤ instant.millis → other.millis ≤ start.millis)
            ∧ granularity.floor? start = some start
            ∧ ∀ coarser : Granularity, granularity.rank ≤ coarser.rank →
                coarser.floor? start = coarser.floor? instant)
      ∧ (∀ instant, instant.date.year < 0 → granularity.floor? instant = none)
      ∧ ∀ label, (∃ start, granularity.windowStart? label = some start)
          ↔ ∃ date hours minutes seconds, IsClockReading date hours minutes seconds
            ∧ 0 ≤ date.year ∧ granularity.spell date hours minutes seconds = label := by
  refine ⟨?_, ?_, ?_, ?_⟩
  · intro label start named
    exact ⟨(windowStart?_eq_some named).1, fun instant => bucket_eq_iff named⟩
  · intro instant year
    obtain ⟨start, found, millis⟩ := floor?_eq_some granularity year
    have reached : start.millis ≤ instant.millis :=
      millis ▸ (granularity.opening_window instant.millis).1
    refine ⟨start, found, found, reached, ?_, ?_, ?_⟩
    · exact fun label other named before => le_of_windowStart? found named before
    · exact (floor?_floor? (Nat.le_refl _) found).trans found
    · exact fun coarser wider => floor?_floor? wider found
  · exact fun instant negative => floor?_eq_none granularity negative
  · exact fun label => exists_windowStart?_iff

/-- There is no 30 February, and none of the other days names a window of seconds. -/
example : day.windowStart? 20240230 = none ∧ second.windowStart? 20240229 = none := by decide

end Granularity

end Telemetry
