import Telemetry.Proofs.Calendar.BucketSpelling

/-! The buckets that a range of instants resolves to. They are those of the windows that reach the
start of the range and end by its end, and there are none if the range leaves the calendar or ends
before the year zero. On the way to them no number leaves 64 bits and no instant the calendar.
-/

namespace Telemetry

theorem Instant.millis_of_ofMillis? {millis : Int} {instant : Instant}
    (h : ofMillis? millis = some instant)
    : instant.millis = millis := by
  unfold ofMillis? at h
  split at h
  · cases h
    rfl
  · cases h

namespace Granularity

variable {granularity : Granularity} {label startMillis endMillis : Int}
variable {window start afterEnd : Instant}

-----------------------------------------------------------------------------------------
-- Windows within a range
-----------------------------------------------------------------------------------------

/-- The last millisecond of the window that starts at an instant. -/
def windowEnd (start : Instant) (granularity : Granularity) : Int :=
  start.millis + granularity.windowLength start - 1

/-- Whether the window that starts at an instant reaches the start of a range and ends by its end.
-/
structure EndsWithin (granularity : Granularity) (startMillis endMillis : Int) (window : Instant)
    : Prop where
  reaches : startMillis ≤ granularity.windowEnd window
  ended : granularity.windowEnd window ≤ endMillis

/-- Windows end within a range from the one that holds its start to the last one before the window
that follows its end.
-/
theorem endsWithin_iff (named : granularity.windowStart? label = some window)
    : granularity.EndsWithin start.millis (afterEnd.millis - 1) window
      ↔ granularity.window start.millis ≤ granularity.window window.millis
        ∧ granularity.window window.millis < granularity.window afterEnd.millis := by
  have stop := opening_succ named
  have reaches := @lt_opening_iff granularity (granularity.window window.millis + 1) start.millis
  have ended := @opening_le_iff granularity (granularity.window window.millis + 1) afterEnd.millis
  rw [stop] at reaches ended
  constructor
  · rintro ⟨reached, done⟩
    unfold windowEnd at reached done
    omega
  · rintro ⟨reached, done⟩
    constructor <;> unfold windowEnd <;> omega

/-- A range resolves to buckets around that of a window exactly if the window ends within it. -/
theorem resolveRange?_around_iff (named : granularity.windowStart? label = some window)
    (year : 0 ≤ afterEnd.date.year)
    : (∃ first last, granularity.resolveRange? start.millis (afterEnd.millis - 1)
          = some (first, last) ∧ first ≤ label ∧ label ≤ last)
      ↔ granularity.EndsWithin start.millis (afterEnd.millis - 1) window := by
  have spelled := (windowStart?_eq_some named).1
  have digits := granularity.digits_strictMono
  rw [bucket_eq_digits] at spelled
  rw [endsWithin_iff named, resolveRange?_eq]
  by_cases some : granularity.window start.millis < granularity.window afterEnd.millis
  · simp only [year, some, and_self, if_true, Option.some.injEq, Prod.mk.injEq]
    constructor
    · rintro ⟨_, _, ⟨rfl, rfl⟩, lower, upper⟩
      rw [← spelled, digits.le_iff_le] at lower upper
      omega
    · intro within
      refine ⟨_, _, ⟨rfl, rfl⟩, ?_, ?_⟩ <;> rw [← spelled, digits.le_iff_le] <;> omega
  · rw [if_neg fun both => some both.2]
    constructor
    · rintro ⟨_, _, resolved, _⟩
      cases resolved
    · intro within
      omega

/-- A range from the year zero on resolves to nothing exactly if no window ends within it. -/
theorem resolveRange?_eq_none_iff (startYear : 0 ≤ start.date.year)
    (year : 0 ≤ afterEnd.date.year)
    : granularity.resolveRange? start.millis (afterEnd.millis - 1) = none
      ↔ ∀ label window, granularity.windowStart? label = some window →
          ¬granularity.EndsWithin start.millis (afterEnd.millis - 1) window := by
  constructor
  · intro nothing label window named within
    obtain ⟨first, last, resolved, _⟩ := (resolveRange?_around_iff named year).mpr within
    rw [nothing] at resolved
    cases resolved
  · intro outside
    obtain ⟨opening, found, _⟩ := floor?_eq_some granularity startYear
    have same := bucket_inj.mp (windowStart?_eq_some found).1
    -- If the range had a window, the one that holds its start would be the first.
    have before := mt (endsWithin_iff found).mpr (outside _ opening found)
    rw [resolveRange?_eq, if_neg]
    rintro ⟨_, some⟩
    exact before (by omega)

theorem le_of_resolveRange? {first last : Int}
    (h : granularity.resolveRange? startMillis endMillis = some (first, last))
    : first ≤ last := by
  obtain ⟨_, _, h⟩ := Option.bind_eq_some_iff.mp h
  obtain ⟨_, _, h⟩ := Option.bind_eq_some_iff.mp h
  obtain ⟨_, _, h⟩ := Option.bind_eq_some_iff.mp h
  obtain ⟨_, _, h⟩ := Option.bind_eq_some_iff.mp h
  split at h
  next => cases h
  next ordered =>
    cases h
    exact Int.not_lt.mp ordered

/-- A range that starts off the calendar, or after whose end there is no year from zero on, resolves
to nothing.
-/
theorem resolveRange?_of_outside (granularity : Granularity)
    (outside : Instant.ofMillis? startMillis = none
      ∨ ∀ afterEnd, Instant.ofMillis? (endMillis + 1) = some afterEnd → afterEnd.date.year < 0)
    : granularity.resolveRange? startMillis endMillis = none := by
  cases begins : Instant.ofMillis? startMillis with
  | none => simp [resolveRange?, bucketOfMillis?, begins]
  | some start =>
      cases ends : Instant.ofMillis? (endMillis + 1) with
      | none => simp [resolveRange?, bucketOfMillis?, begins, ends]
      | some afterEnd =>
          have negative := outside.resolve_left (by simp [begins]) afterEnd ends
          simp [resolveRange?, bucketOfMillis?, begins, ends, floor?_eq_none granularity negative]

-----------------------------------------------------------------------------------------
-- Bounds
-----------------------------------------------------------------------------------------

/-- Before the window of an instant opens there is an instant. -/
theorem exists_before_floor? (floor : granularity.floor? afterEnd = some start)
    : ∃ last, Instant.ofMillis? (start.millis - 1) = some last := by
  have opened := (windowStart?_eq_some floor).2
  have reached := granularity.first_lt_opening (year_of_windowStart? floor)
  have bound := start.onCalendar.2
  rw [← opened] at reached
  exact ⟨_, dif_pos ⟨Int.le_sub_one_of_lt reached, by omega⟩⟩

/-- Buckets fit 64 bits, even with two more digits. -/
theorem bucket_bounds (granularity : Granularity) (instant : Instant)
    : Int64.minValue.toInt ≤ granularity.bucket instant * 100
      ∧ granularity.bucket instant * 100 + 99 ≤ Int64.maxValue.toInt := by
  have firstYear := instant.firstYear_le
  have lastYear := instant.year_le
  obtain ⟨one, twelve, first, last, _⟩ := date_bounds instant
  obtain ⟨hour, minute, second⟩ := clock_bounds instant
  have few := Date.daysInMonth_le instant.date.year instant.date.month
  unfold Date.firstYear at firstYear
  unfold Date.lastYear at lastYear
  unfold bucket
  rw [Int64.toInt_minValue, Int64.toInt_maxValue]
  cases granularity <;> dsimp only <;> omega

/-- A range whose start and the millisecond after its end are instants, the latter of the year zero
or later, resolves to exactly the buckets of the windows that reach its start and end by its end; if
it starts in the year zero or later, to nothing exactly if there is no such window. Every other
range resolves to nothing, also one that ends with the greatest number of 64 bits. What a range
resolves to is in order, the millisecond before the window that follows is an instant, and all
digits fit 64 bits.
-/
theorem ranges_select_ended_windows (granularity : Granularity) (startMillis endMillis : Int)
    : (∀ start afterEnd, Instant.ofMillis? startMillis = some start →
        Instant.ofMillis? (endMillis + 1) = some afterEnd → 0 ≤ afterEnd.date.year →
          (∀ label window, granularity.windowStart? label = some window →
            ((∃ first last, granularity.resolveRange? startMillis endMillis = some (first, last)
                ∧ first ≤ label ∧ label ≤ last)
              ↔ granularity.EndsWithin startMillis endMillis window))
          ∧ (0 ≤ start.date.year →
              (granularity.resolveRange? startMillis endMillis = none
                ↔ ¬∃ label window, granularity.windowStart? label = some window
                    ∧ granularity.EndsWithin startMillis endMillis window)))
      ∧ (∀ first last, granularity.resolveRange? startMillis endMillis = some (first, last) →
          first ≤ last)
      ∧ ((Instant.ofMillis? startMillis = none
            ∨ ∀ afterEnd, Instant.ofMillis? (endMillis + 1) = some afterEnd →
                afterEnd.date.year < 0) →
          granularity.resolveRange? startMillis endMillis = none)
      ∧ granularity.resolveRange? startMillis Int64.maxValue.toInt = none
      ∧ (∀ afterEnd opening, Instant.ofMillis? (endMillis + 1) = some afterEnd →
          granularity.floor? afterEnd = some opening →
          ∃ last, Instant.ofMillis? (opening.millis - 1) = some last)
      ∧ ∀ instant, Int64.minValue.toInt ≤ granularity.bucket instant * 100
          ∧ granularity.bucket instant * 100 + 99 ≤ Int64.maxValue.toInt := by
  refine ⟨?_, fun _ _ => le_of_resolveRange?, resolveRange?_of_outside granularity, ?_,
    fun _ _ _ floor => exists_before_floor? floor, granularity.bucket_bounds⟩
  · intro start afterEnd begins ends year
    obtain rfl := Instant.millis_of_ofMillis? begins
    obtain rfl : endMillis = afterEnd.millis - 1 := by
      rw [Instant.millis_of_ofMillis? ends, Int.add_sub_cancel]
    refine ⟨fun label window named => resolveRange?_around_iff named year, fun startYear => ?_⟩
    rw [resolveRange?_eq_none_iff startYear year]
    simp only [not_exists, not_and]
  · refine resolveRange?_of_outside granularity (.inr fun afterEnd ends => ?_)
    cases ends

/-- On 10 January 2024 the month of January has not ended yet. -/
example : month.resolveRange? 0 1704844799999 = some (197001, 202312) := by decide

end Granularity

end Telemetry
