import Telemetry.Proofs.Calendar.BucketOrder
import Telemetry.Proofs.Collector.RetentionHorizon
import Mathlib.Data.Nat.PSub

/-! The arithmetic of retention cutoffs. A cutoff is the midnight of a calendar day, so many days
back from the day of the sweep or at the start of the calendar. It moves forward with the day of the
sweep and back with the number of days to keep, and every number on the way to it fits its word.
-/

namespace Telemetry

-----------------------------------------------------------------------------------------
-- Days of the calendar
-----------------------------------------------------------------------------------------

namespace Date

/-- Whether the calendar has a day of a number. -/
def Reaches (number : Int) : Prop :=
  ∃ date : Date, date.isValid = true ∧ date.dayNumber = number

theorem isValid_ofDayNumber {number : Int} (lower : -96465292 ≤ number) (upper : number ≤ 95026236)
    : (ofDayNumber number).isValid = true ∧ (ofDayNumber number).dayNumber = number := by
  have bounds : -8334601228800000 ≤ number * millisPerDay
      ∧ number * millisPerDay ≤ 8210266876799999 := by
    unfold millisPerDay
    omega
  let midnight : Instant := ⟨number * millisPerDay, bounds⟩
  have day : midnight.dayNumber = number := Int.mul_ediv_cancel number (by decide)
  have reading := midnight.isClockReading.valid
  rw [Instant.date, day] at reading
  exact ⟨reading, (ofDayNumber_spec number).2.2.2.2⟩

theorem reaches_iff {number : Int} : Reaches number ↔ -96465292 ≤ number ∧ number ≤ 95026236 := by
  constructor
  · rintro ⟨date, valid, rfl⟩
    exact dayNumber_bounds valid
  · rintro ⟨lower, upper⟩
    exact ⟨ofDayNumber number, isValid_ofDayNumber lower upper⟩

def first : Date := ⟨firstYear, 1, 1⟩

/-- The day so many days before a date, if the calendar reaches it and the count fits 32 bits. -/
def daysBefore? (date : Date) (count : Nat) : Option Date :=
  if (count : Int) ≤ Int32.maxValue.toInt ∧ first.dayNumber ≤ date.dayNumber - count then
    some (ofDayNumber (date.dayNumber - count))
  else none

end Date

namespace Instant

theorem dayNumber_bounds (instant : Instant)
    : -96465292 ≤ instant.dayNumber ∧ instant.dayNumber ≤ 95026236 := by
  have reached := instant.onCalendar
  unfold dayNumber millisPerDay
  omega

/-- Instants of one date are those of one day number. -/
theorem dayNumber_eq_of_date {instant other : Instant} (same : other.date = instant.date)
    : other.dayNumber = instant.dayNumber := by
  rw [← (Granularity.date_bounds other).2.2.2.2, same, (Granularity.date_bounds instant).2.2.2.2]

/-- The milliseconds of the midnight of a date, unless there is none or a number on the way to it
does not fit 64 bits.
-/
def wordMidnight? (date : Date) : Option Int := do
  let midnight ← ofClock? date 0 0 0
  let seconds ← word? (midnight.dayNumber * 86400)
  word? (seconds * 1000)

theorem wordMidnight?_eq_some {date : Date} (valid : date.isValid = true)
    : wordMidnight? date = some (date.dayNumber * millisPerDay) := by
  obtain ⟨midnight, clock⟩ := exists_ofClock?
    (⟨valid, by decide, by decide, by decide⟩ : IsClockReading date 0 0 0)
  obtain ⟨_, same, _⟩ := ofClock?_eq_some clock
  have day : midnight.dayNumber = date.dayNumber :=
    (same ▸ (Granularity.date_bounds midnight).2.2.2.2).symm
  have reached := day ▸ midnight.dayNumber_bounds
  have seconds : FitsWord (date.dayNumber * 86400) := by
    rw [FitsWord, Int64.toInt_minValue, Int64.toInt_maxValue]
    omega
  have millis : FitsWord (date.dayNumber * 86400 * 1000) := by
    rw [FitsWord, Int64.toInt_minValue, Int64.toInt_maxValue]
    omega
  have product : date.dayNumber * 86400 * 1000 = date.dayNumber * millisPerDay := by
    unfold millisPerDay
    omega
  rw [product] at millis
  simp only [wordMidnight?, clock, day, Option.bind_eq_bind, Option.bind_some,
    word?_eq_some seconds, word?_eq_some millis, product]

end Instant

namespace Storage

-----------------------------------------------------------------------------------------
-- Cutoffs
-----------------------------------------------------------------------------------------

/-- The day number of the first day that a sweep keeps rows of. -/
def firstKeptDay (now : Instant) (ttlDays : Nat) : Int :=
  max (now.dayNumber - (effectiveTtlDays ttlDays - 1 : Nat)) Instant.first.dayNumber

theorem cutoff_eq (now : Instant) (ttlDays : Nat)
    : cutoff now ttlDays = firstKeptDay now ttlDays * millisPerDay := rfl

theorem firstKeptDay_bounds (now : Instant) (ttlDays : Nat)
    : -96465292 ≤ firstKeptDay now ttlDays ∧ firstKeptDay now ttlDays ≤ now.dayNumber := by
  have reached := now.dayNumber_bounds
  have first : Instant.first.dayNumber = -96465292 := by decide
  unfold firstKeptDay
  omega

/-- The first kept day is so many days back if the calendar reaches that day. -/
theorem firstKeptDay_of_reaches {now : Instant} {ttlDays : Nat}
    (reached : Date.Reaches (now.dayNumber - (effectiveTtlDays ttlDays - 1 : Nat)))
    : firstKeptDay now ttlDays = now.dayNumber - (effectiveTtlDays ttlDays - 1 : Nat) := by
  have bounds := Date.reaches_iff.mp reached
  have first : Instant.first.dayNumber = -96465292 := by decide
  unfold firstKeptDay
  omega

theorem firstKeptDay_of_not_reaches {now : Instant} {ttlDays : Nat}
    (outside : ¬Date.Reaches (now.dayNumber - (effectiveTtlDays ttlDays - 1 : Nat)))
    : firstKeptDay now ttlDays = Instant.first.dayNumber := by
  have bounds := now.dayNumber_bounds
  have first : Instant.first.dayNumber = -96465292 := by decide
  rw [Date.reaches_iff] at outside
  unfold firstKeptDay
  omega

/-- A cutoff is not later with more days to keep. -/
theorem cutoff_anti (now : Instant) {fewer more : Nat}
    (h : effectiveTtlDays fewer ≤ effectiveTtlDays more)
    : cutoff now more ≤ cutoff now fewer := by
  unfold cutoff millisPerDay
  omega

/-- The cutoff lies at the start of the last days up to the one of the sweep. -/
theorem cutoff_within {now : Instant} {ttlDays : Nat}
    (reached : Date.Reaches (now.dayNumber - (effectiveTtlDays ttlDays - 1 : Nat)))
    : cutoff now ttlDays + (effectiveTtlDays ttlDays - 1 : Nat) * millisPerDay ≤ now.millis
      ∧ now.millis < cutoff now ttlDays + effectiveTtlDays ttlDays * millisPerDay := by
  have positive := effectiveTtlDays_pos ttlDays
  rw [cutoff_eq, firstKeptDay_of_reaches reached]
  unfold Instant.dayNumber millisPerDay
  omega

/-- The last millisecond before the first kept day, computed as dates and in words: the count of
days in unsigned 64 bits, the day on the calendar or else its first one, and the milliseconds of its
midnight in 64 bits. No result means that a step is not possible.
-/
def wordRetentionEnd? (now : Instant) (ttlDays : UInt32) : Option Int := do
  let back ← (effectiveTtlDays ttlDays.toNat).ppred
  let kept := (now.date.daysBefore? back).getD Date.first
  let midnight ← Instant.wordMidnight? kept
  word? (midnight - 1)

/-- The day of a cutoff is found on the calendar. -/
theorem daysBefore?_date (now : Instant) (ttlDays : Nat)
    : let kept := (now.date.daysBefore? (effectiveTtlDays ttlDays - 1)).getD Date.first
      kept.isValid = true ∧ kept.dayNumber = firstKeptDay now ttlDays := by
  have bounds := now.dayNumber_bounds
  have first : Date.first.dayNumber = -96465292 := by decide
  have day := (Granularity.date_bounds now).2.2.2.2
  unfold Date.daysBefore?
  rw [day, first]
  by_cases reached : Date.Reaches (now.dayNumber - (effectiveTtlDays ttlDays - 1 : Nat))
  · obtain ⟨lower, upper⟩ := Date.reaches_iff.mp reached
    have few : ((effectiveTtlDays ttlDays - 1 : Nat) : Int) ≤ Int32.maxValue.toInt := by
      rw [Int32.toInt_maxValue]
      omega
    rw [if_pos ⟨few, lower⟩, firstKeptDay_of_reaches reached]
    exact Date.isValid_ofDayNumber lower upper
  · have outside : ¬(((effectiveTtlDays ttlDays - 1 : Nat) : Int) ≤ Int32.maxValue.toInt
        ∧ -96465292 ≤ now.dayNumber - (effectiveTtlDays ttlDays - 1 : Nat)) := by
      rw [Date.reaches_iff] at reached
      omega
    rw [if_neg outside, firstKeptDay_of_not_reaches reached]
    exact ⟨by decide, by decide⟩

/-- Every step on the way to a cutoff is possible. -/
theorem wordRetentionEnd?_eq_some (now : Instant) (ttlDays : UInt32)
    : wordRetentionEnd? now ttlDays = some (retentionEnd now ttlDays.toNat) := by
  have positive := effectiveTtlDays_pos ttlDays.toNat
  have back : (effectiveTtlDays ttlDays.toNat).ppred
      = some (effectiveTtlDays ttlDays.toNat - 1) :=
    Nat.ppred_eq_some.mpr (Nat.succ_pred_eq_of_pos positive)
  obtain ⟨valid, day⟩ := daysBefore?_date now ttlDays.toNat
  have midnight := Instant.wordMidnight?_eq_some valid
  rw [day, ← cutoff_eq] at midnight
  have reached := cutoff_onCalendar now ttlDays.toNat
  have before : FitsWord (cutoff now ttlDays.toNat - 1) := by
    rw [FitsWord, Int64.toInt_minValue, Int64.toInt_maxValue]
    omega
  simp only [wordRetentionEnd?, back, midnight, Option.bind_eq_bind, Option.bind_some,
    word?_eq_some before, retentionEnd_eq]

/-- The millisecond after the retention end is a midnight. It starts the days to keep, of which that
of the sweep is the last, or the calendar if that does not reach so far back. The retention end
depends on the date of the sweep alone, is not earlier for later sweeps, not later with more days to
keep, and always before the sweep. No step on the way to it fails.
-/
theorem retentionEnd_precedes_kept_days (now : Instant) (ttlDays : UInt32)
    : let days := effectiveTtlDays ttlDays.toNat
      let midnight := retentionEnd now ttlDays.toNat + 1
      (∃ date start, Instant.ofClock? date 0 0 0 = some start ∧ start.millis = midnight)
      ∧ (Date.Reaches (now.dayNumber - (days - 1)) →
          midnight + (days - 1) * millisPerDay ≤ now.millis
          ∧ now.millis < midnight + days * millisPerDay)
      ∧ (¬Date.Reaches (now.dayNumber - (days - 1)) → midnight = Instant.first.millis)
      ∧ (∀ other : Instant, other.date = now.date →
          retentionEnd other ttlDays.toNat = retentionEnd now ttlDays.toNat)
      ∧ (∀ later : Instant, now.millis ≤ later.millis →
          retentionEnd now ttlDays.toNat ≤ retentionEnd later ttlDays.toNat)
      ∧ (∀ more : UInt32, days ≤ effectiveTtlDays more.toNat →
          retentionEnd now more.toNat ≤ retentionEnd now ttlDays.toNat)
      ∧ retentionEnd now ttlDays.toNat < now.millis
      ∧ wordRetentionEnd? now ttlDays = some (retentionEnd now ttlDays.toNat) := by
  intro days midnight
  have positive := effectiveTtlDays_pos ttlDays.toNat
  have back : ((days - 1 : Nat) : Int) = days - 1 := by omega
  have start : midnight = cutoff now ttlDays.toNat := Int.sub_add_cancel _ _
  rw [← back, start]
  refine ⟨?_, cutoff_within, fun outside => ?_, fun other same => ?_, fun later ordered => ?_,
    fun more atLeast => ?_, ?_, wordRetentionEnd?_eq_some now ttlDays⟩
  · obtain ⟨valid, day⟩ := daysBefore?_date now ttlDays.toNat
    obtain ⟨instant, clock⟩ := Instant.exists_ofClock?
      (⟨valid, by decide, by decide, by decide⟩ : IsClockReading _ 0 0 0)
    obtain ⟨_, _, _, _, _, millis⟩ := Instant.ofClock?_eq_some clock
    refine ⟨_, instant, clock, ?_⟩
    rw [millis, day, cutoff_eq]
    omega
  · rw [cutoff_eq, firstKeptDay_of_not_reaches outside]
    decide
  · rw [retentionEnd_eq, retentionEnd_eq, cutoff_eq, cutoff_eq, firstKeptDay, firstKeptDay,
      Instant.dayNumber_eq_of_date same]
  · have ordered := cutoff_mono ordered ttlDays.toNat
    rw [retentionEnd_eq, retentionEnd_eq]
    omega
  · have ordered := cutoff_anti now atLeast
    rw [retentionEnd_eq, retentionEnd_eq]
    omega
  · have kept := (firstKeptDay_bounds now ttlDays.toNat).2
    rw [retentionEnd_eq, cutoff_eq]
    unfold Instant.dayNumber millisPerDay at *
    omega

/-- The largest count of days reaches back beyond the calendar. -/
example : retentionEnd ⟨1704898800000, by decide⟩ 4294967295 = Instant.first.millis - 1 := by
  decide

end Storage

end Telemetry
