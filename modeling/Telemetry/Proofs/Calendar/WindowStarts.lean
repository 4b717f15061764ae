import Telemetry.Proofs.Calendar.Windows

/-! Buckets name windows. A bucket with a start is the bucket of that start and of the instants up to
the next window, and every window of the year zero or later has such a bucket.
-/

namespace Telemetry

-----------------------------------------------------------------------------------------
-- Clocks
-----------------------------------------------------------------------------------------

namespace Instant

/-- A clock shows the date and the time of day that an instant was made of. -/
theorem ofClock?_eq_some {date : Date} {hour minute second : Int} {instant : Instant}
    (h : ofClock? date hour minute second = some instant)
    : date.isValid = true ∧ instant.date = date ∧ instant.hour = hour
      ∧ instant.minute = minute ∧ instant.second = second
      ∧ instant.millis
        = date.dayNumber * millisPerDay + (hour * 3600 + minute * 60 + second) * 1000 := by
  unfold ofClock? at h
  split at h
  next fields =>
    simp only [Bool.and_eq_true, decide_eq_true_eq] at fields
    obtain ⟨⟨⟨⟨⟨⟨valid, _⟩, _⟩, _⟩, _⟩, _⟩, _⟩ := fields
    unfold ofMillis? at h
    split at h
    · cases h
      have day : (date.dayNumber * millisPerDay + (hour * 3600 + minute * 60 + second) * 1000)
          / millisPerDay = date.dayNumber := by
        unfold millisPerDay
        omega
      have parts := valid
      simp only [Date.isValid, Bool.and_eq_true, decide_eq_true_eq] at parts
      obtain ⟨⟨⟨⟨_, one⟩, twelve⟩, first⟩, last⟩ := parts
      refine ⟨valid, ?_, ?_, ?_, ?_, rfl⟩
      · rw [Instant.date, Instant.dayNumber, day, Date.ofDayNumber_dayNumber one twelve first last]
      · dsimp only [Instant.hour, secondOfDay, millisPerDay]
        omega
      · dsimp only [Instant.minute, secondOfDay, millisPerDay]
        omega
      · dsimp only [Instant.second, secondOfDay, millisPerDay]
        omega
    · cases h
  next => cases h

/-- A time of day of a valid date is an instant if the calendar reaches it. -/
theorem ofClock?_eq_of_valid {date : Date} {hour minute second : Int} {instant : Instant}
    (valid : date.isValid = true) (hours : 0 ≤ hour ∧ hour < 24)
    (minutes : 0 ≤ minute ∧ minute < 60) (seconds : 0 ≤ second ∧ second < 60)
    (same : date.dayNumber * millisPerDay + (hour * 3600 + minute * 60 + second) * 1000
      = instant.millis)
    : ofClock? date hour minute second = some instant := by
  simp only [ofClock?, valid, hours, minutes, seconds, decide_true, Bool.and_self, if_true, same,
    ofMillis?]
  exact dif_pos instant.onCalendar

/-- The last year of the calendar ends at the last instant. -/
theorem year_le (instant : Instant) : instant.date.year ≤ Date.lastYear := by
  by_contra later
  have start := (Date.yearStart_yearOf instant.dayNumber).1
  have years : Date.lastYear + 1 ≤ Date.yearOf instant.dayNumber := by
    have same : instant.date.year = Date.yearOf instant.dayNumber := rfl
    omega
  have ordered := Date.yearStart_le years
  have known : Date.yearStart (Date.lastYear + 1) = 95026237 := by decide
  have bound := instant.onCalendar.2
  unfold dayNumber millisPerDay at *
  omega

end Instant

namespace Granularity

variable {granularity : Granularity}

/-- A bucket with a start is not negative, since a negative one would name a negative month. -/
theorem nonneg_of_windowStart? {label : Int} {start : Instant}
    (h : granularity.windowStart? label = some start)
    : 0 ≤ label := by
  by_contra negative
  have month_le {number : Int} (h : number ≤ 0) : number.tmod 100 ≤ 0 := by
    have opposite := Int.tmod_nonneg 100 (Int.neg_nonneg.mpr h)
    rw [Int.neg_tmod] at opposite
    omega
  have cut_le (skipped : Int) (hs : 0 ≤ skipped) : label.tdiv skipped ≤ 0 := by
    have opposite := Int.tdiv_nonneg (by omega : 0 ≤ -label) hs
    rw [Int.neg_tdiv] at opposite
    omega
  have positive {date : Date} {hour minute second : Int}
      (h : Instant.ofClock? date hour minute second = some start) : 1 ≤ date.month := by
    have valid := (Instant.ofClock?_eq_some h).1
    simp only [Date.isValid, Bool.and_eq_true, decide_eq_true_eq] at valid
    omega
  cases granularity with
  | month => exact absurd (positive h) (Int.not_le.mpr (Int.lt_add_one_of_le (month_le (by omega))))
  | _ =>
      refine absurd (positive h) (Int.not_le.mpr (Int.lt_add_one_of_le (month_le (cut_le _ ?_))))
      decide

/-- The bucket of a start is the bucket that it is the start of, and a window opens there. -/
theorem windowStart?_eq_some {label : Int} {start : Instant}
    (h : granularity.windowStart? label = some start)
    : granularity.bucket start = label
      ∧ start.millis = granularity.opening (granularity.window start.millis) := by
  have nonneg := nonneg_of_windowStart? h
  unfold windowStart? at h
  cases granularity with
  | month =>
      obtain ⟨_, date, _, _, _, millis⟩ := Instant.ofClock?_eq_some h
      simp (disch := omega) only [Int.tdiv_eq_ediv_of_nonneg, Int.tmod_eq_emod_of_nonneg] at *
      constructor
      · simp only [bucket, date]
        omega
      · have first : (Date.ofDayNumber (start.millis / millisPerDay)).day = 1 :=
          congrArg Date.day date
        have opened := (Date.monthOpening_monthNumber (start.millis / millisPerDay)).2.2
        dsimp only [opening, window]
        unfold millisPerDay at *
        omega
  | _ =>
      obtain ⟨_, date, hour, minute, second, millis⟩ := Instant.ofClock?_eq_some h
      simp (disch := omega) only [Int.tdiv_eq_ediv_of_nonneg, Int.tmod_eq_emod_of_nonneg] at *
      constructor
      · simp only [bucket, date, hour, minute, second]
        omega
      · dsimp only [opening, window]
        unfold millisPerDay at *
        omega

/-- A window that is open in the year zero or later has opened after the calendar starts. -/
theorem first_lt_opening (granularity : Granularity) {millis : Int}
    (h : 0 ≤ (Date.ofDayNumber (millis / millisPerDay)).year)
    : Instant.first.millis < granularity.opening (granularity.window millis) := by
  have year : -719528 ≤ Date.yearStart (Date.ofDayNumber (millis / millisPerDay)).year :=
    Date.yearStart_le h
  have day : Date.yearStart (Date.ofDayNumber (millis / millisPerDay)).year ≤ millis / millisPerDay :=
    (Date.yearStart_yearOf (millis / millisPerDay)).1
  cases granularity with
  | month =>
      obtain ⟨one, twelve, _⟩ := Date.ofDayNumber_spec (millis / millisPerDay)
      have opened := @Date.monthOpening_eq (Date.ofDayNumber (millis / millisPerDay)).year _ one
        (by omega)
      have january := @Date.monthStart_le (Date.ofDayNumber (millis / millisPerDay)).year _ _ one
      dsimp only [opening, window, Instant.first]
      rw [Date.monthNumber, opened]
      rw [Date.monthStart_one] at january
      unfold millisPerDay at *
      omega
  | _ =>
      dsimp only [opening, window, Instant.first]
      unfold millisPerDay at *
      omega

section

variable {instant : Instant}

theorem date_bounds (instant : Instant)
    : 1 ≤ instant.date.month ∧ instant.date.month ≤ 12 ∧ 1 ≤ instant.date.day
      ∧ instant.date.day ≤ Date.daysInMonth instant.date.year instant.date.month
      ∧ instant.date.dayNumber = instant.dayNumber :=
  Date.ofDayNumber_spec instant.dayNumber

theorem clock_bounds (instant : Instant)
    : (0 ≤ instant.hour ∧ instant.hour < 24) ∧ (0 ≤ instant.minute ∧ instant.minute < 60)
      ∧ 0 ≤ instant.second ∧ instant.second < 60 := by
  unfold Instant.hour Instant.minute Instant.second Instant.secondOfDay millisPerDay
  omega

/-- The milliseconds of the window that starts at an instant. -/
def windowLength (start : Instant) : Granularity → Int
  | second => 1000
  | minute => 60000
  | hour => 3600000
  | day => millisPerDay
  | month => Date.daysInMonth start.date.year start.date.month * millisPerDay

/-- A window ends where the next one opens. -/
theorem opening_succ {granularity : Granularity} {label : Int} {start : Instant}
    (h : granularity.windowStart? label = some start)
    : granularity.opening (granularity.window start.millis + 1)
      = start.millis + granularity.windowLength start := by
  obtain ⟨_, opened⟩ := windowStart?_eq_some h
  cases granularity with
  | month =>
      obtain ⟨one, twelve, _⟩ := date_bounds start
      have here := @Date.monthOpening_eq start.date.year start.date.month one (by omega)
      have next := @Date.monthOpening_eq start.date.year (start.date.month + 1) (by omega)
        (by omega)
      have number : month.window start.millis
          = start.date.year * 12 + start.date.month - 1 := rfl
      have number_succ : start.date.year * 12 + start.date.month - 1 + 1
          = start.date.year * 12 + (start.date.month + 1) - 1 := by omega
      dsimp only [opening, windowLength] at *
      rw [number, here] at opened
      rw [number, number_succ, next, opened, Date.daysInMonth]
      unfold millisPerDay
      omega
  | _ =>
      dsimp only [opening, window, windowLength, millisPerDay] at *
      omega

theorem year_nonneg (h : 0 ≤ instant.millis) : 0 ≤ instant.date.year := by
  by_contra negative
  have within := (Date.yearStart_yearOf instant.dayNumber).2
  have same : instant.date.year = Date.yearOf instant.dayNumber := rfl
  have before : Date.yearStart (Date.yearOf instant.dayNumber + 1) ≤ -719528 :=
    Date.yearStart_le (by omega : Date.yearOf instant.dayNumber + 1 ≤ 0)
  unfold Instant.dayNumber millisPerDay at *
  omega

/-- Two digits are cut off from a number that ends with them. -/
theorem cut_digits {front last : Int} (h : 0 ≤ last ∧ last < 100)
    : (front * 100 + last) % 100 = last ∧ (front * 100 + last) / 1 % 100 = last
      ∧ (front * 100 + last) / 100 = front
      ∧ (front * 100 + last) / 10000 = front / 100
      ∧ (front * 100 + last) / 1000000 = front / 10000
      ∧ (front * 100 + last) / 100000000 = front / 1000000 := by
  omega

/-- The fields that a bucket spells are read back from its digits, the others are the first ones. -/
theorem floor?_eq_clock (granularity : Granularity) (h : 0 ≤ instant.date.year)
    : granularity.floor? instant
      = match granularity with
        | month => Instant.ofClock? ⟨instant.date.year, instant.date.month, 1⟩ 0 0 0
        | day => Instant.ofClock? instant.date 0 0 0
        | hour => Instant.ofClock? instant.date instant.hour 0 0
        | minute => Instant.ofClock? instant.date instant.hour instant.minute 0
        | second => Instant.ofClock? instant.date instant.hour instant.minute instant.second := by
  obtain ⟨one, twelve, first, last, _⟩ := date_bounds instant
  obtain ⟨hour, minute, second⟩ := clock_bounds instant
  have few := Date.daysInMonth_le instant.date.year instant.date.month
  unfold floor? windowStart? bucket
  cases granularity <;>
    simp (disch := omega) only [Int.tdiv_eq_ediv_of_nonneg, Int.tmod_eq_emod_of_nonneg, cut_digits]

/-- The window of an instant of the year zero or later is named by its bucket. -/
theorem floor?_eq_some (granularity : Granularity) (h : 0 ≤ instant.date.year)
    : ∃ start, granularity.floor? instant = some start
      ∧ start.millis = granularity.opening (granularity.window instant.millis) := by
  have opened := (granularity.opening_window instant.millis).1
  have reached := Int.le_of_lt (granularity.first_lt_opening h)
  refine ⟨⟨_, reached, Int.le_trans opened instant.onCalendar.2⟩, ?_, rfl⟩
  obtain ⟨one, twelve, first, last, number⟩ := date_bounds instant
  obtain ⟨hour, minute, second⟩ := clock_bounds instant
  have lastYear := instant.year_le
  have valid {d : Int} (positive : 1 ≤ d) (le : d ≤ instant.date.day)
      : Date.isValid ⟨instant.date.year, instant.date.month, d⟩ = true := by
    have firstYear : Date.firstYear ≤ instant.date.year := Int.le_trans (by decide) h
    simp only [Date.isValid, Bool.and_eq_true, decide_eq_true_eq]
    exact ⟨⟨⟨⟨⟨firstYear, lastYear⟩, one⟩, twelve⟩, positive⟩, Int.le_trans le last⟩
  have zero : (0 : Int) ≤ 0 ∧ (0 : Int) < 60 := by decide
  rw [floor?_eq_clock granularity h]
  cases granularity with
  | month =>
      refine Instant.ofClock?_eq_of_valid (valid (by decide) first) (by decide) zero zero ?_
      have months := @Date.monthOpening_eq instant.date.year instant.date.month one (by omega)
      have numbered : Granularity.month.window instant.millis
        = instant.date.year * 12 + instant.date.month - 1 := rfl
      dsimp only [opening, Date.dayNumber]
      rw [numbered, months]
      unfold millisPerDay
      omega
  | _ =>
      refine Instant.ofClock?_eq_of_valid (valid first (Int.le_refl _)) ?_ ?_ ?_ ?_
      · first | exact hour | decide
      · first | exact minute | exact zero
      · first | exact second | exact zero
      · rw [number]
        dsimp only [opening, window, Instant.dayNumber, Instant.hour, Instant.minute,
          Instant.second, Instant.secondOfDay, millisPerDay]
        omega

/-- No bucket names a window of a year before the year zero, since it is negative. -/
theorem floor?_eq_none (granularity : Granularity) (h : instant.date.year < 0)
    : granularity.floor? instant = none := by
  rw [floor?, Option.eq_none_iff_forall_ne_some]
  intro start found
  have nonneg := nonneg_of_windowStart? found
  obtain ⟨one, twelve, first, last, _⟩ := date_bounds instant
  obtain ⟨hour, minute, second⟩ := clock_bounds instant
  have few := Date.daysInMonth_le instant.date.year instant.date.month
  unfold bucket at nonneg
  cases granularity <;> dsimp only at nonneg <;> omega

end

-----------------------------------------------------------------------------------------
-- Ranges of buckets
-----------------------------------------------------------------------------------------

/-- Just before a window opens the window before it is open. -/
theorem window_opening_sub_one (granularity : Granularity) (number : Int)
    : granularity.window (granularity.opening number - 1) = number - 1 := by
  have before : granularity.window (granularity.opening number - 1) < number :=
    lt_opening_iff.mp (by omega)
  have ascending := granularity.opening_strictMono (by omega : number - 1 < number)
  have after : number - 1 ≤ granularity.window (granularity.opening number - 1) :=
    opening_le_iff.mp (by omega)
  omega

theorem ofMillis?_millis (instant : Instant) : Instant.ofMillis? instant.millis = some instant :=
  dif_pos instant.onCalendar

/-- A range of instants resolves to the windows from the one that holds its start to the last one
that has ended by its end.
-/
theorem resolveRange?_eq (granularity : Granularity) (start afterEnd : Instant)
    : granularity.resolveRange? start.millis (afterEnd.millis - 1)
      = if 0 ≤ afterEnd.date.year
          ∧ granularity.window start.millis < granularity.window afterEnd.millis then
          some (granularity.digits (granularity.window start.millis),
            granularity.digits (granularity.window afterEnd.millis - 1))
        else none := by
  unfold resolveRange? bucketOfMillis?
  rw [Int.sub_add_cancel, ofMillis?_millis, ofMillis?_millis]
  by_cases year : 0 ≤ afterEnd.date.year
  · obtain ⟨opening, found, millis⟩ := floor?_eq_some granularity year
    have opened := (granularity.opening_window afterEnd.millis).1
    have reached := granularity.first_lt_opening year
    rw [← millis] at opened reached
    have before : Instant.ofMillis? (opening.millis - 1)
        = some ⟨opening.millis - 1, Int.le_sub_one_of_lt reached,
          Int.le_trans (Int.sub_le_self _ (by decide)) opening.onCalendar.2⟩ := dif_pos _
    have last : granularity.window (opening.millis - 1)
        = granularity.window afterEnd.millis - 1 := by
      rw [millis, window_opening_sub_one]
    simp only [Option.map_some, Option.bind_eq_bind, Option.bind_some, found, before,
      bucket_eq_digits, last, year, true_and, granularity.digits_strictMono.lt_iff_lt]
    by_cases some : granularity.window start.millis < granularity.window afterEnd.millis
    · rw [if_neg (by omega), if_pos some]
    · rw [if_pos (by omega), if_neg some]
  · simp [floor?_eq_none granularity (Int.not_le.mp year), year]

/-- The range from 1970 on is cut short by no negative year, for it has no window then. -/
theorem resolveRange?_zero (granularity : Granularity) (afterEnd : Instant)
    : granularity.resolveRange? 0 (afterEnd.millis - 1)
      = if granularity.window 0 < granularity.window afterEnd.millis then
          some (granularity.digits (granularity.window 0),
            granularity.digits (granularity.window afterEnd.millis - 1))
        else none := by
  have resolved := granularity.resolveRange?_eq ⟨0, by decide⟩ afterEnd
  by_cases some : granularity.window 0 < granularity.window afterEnd.millis
  · have opened := lt_opening_iff.mpr some
    have year := year_nonneg (Int.le_trans (Int.le_of_lt opened)
      (granularity.opening_window afterEnd.millis).1)
    simpa [some, year] using resolved
  · simpa [some] using resolved

end Granularity

end Telemetry
