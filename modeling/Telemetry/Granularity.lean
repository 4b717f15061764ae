import Telemetry.Calendar

/-!
Granularities of time windows and the decimal buckets that name windows: the digits of the
calendar fields, year first. `Granularity.resolveRange` turns a range of instants into the range
of the buckets whose windows lie inside it.
-/

namespace Telemetry

/-- The width of a time window, finest first. -/
inductive Granularity where
  | second | minute | hour | day | month
  deriving DecidableEq, Repr

namespace Granularity

/-- All granularities, finest first. -/
def all : List Granularity := [second, minute, hour, day, month]

def name : Granularity → String
  | second => "second"
  | minute => "minute"
  | hour => "hour"
  | day => "day"
  | month => "month"

/-- The name as a constructor reads, with a capital letter. -/
def title : Granularity → String
  | second => "Second"
  | minute => "Minute"
  | hour => "Hour"
  | day => "Day"
  | month => "Month"

def ofName? (text : String) : Option Granularity :=
  all.find? (·.name == text)

/-- The table that holds the windows of one granularity of an entity. -/
def tableName (granularity : Granularity) (base : String) : String :=
  granularity.name ++ "_" ++ base

/-- The bucket of the window that holds an instant: the decimal digits of its fields. -/
def bucket (granularity : Granularity) (instant : Instant) : Int :=
  let date := instant.date
  let months := date.year * 100 + date.month
  let days := months * 100 + date.day
  let hours := days * 100 + instant.hour
  let minutes := hours * 100 + instant.minute
  match granularity with
  | month => months
  | day => days
  | hour => hours
  | minute => minutes
  | second => minutes * 100 + instant.second

/-- The bucket of a count of milliseconds, if the calendar reaches it. -/
def bucketOfMillis? (granularity : Granularity) (millis : Int) : Option Int :=
  (Instant.ofMillis? millis).map granularity.bucket

/-- The instant at which the window of a bucket starts. Fields are cut off from the right and
carry the sign of the bucket, so no negative bucket names a window.
-/
def windowStart? (granularity : Granularity) (bucket : Int) : Option Instant :=
  let field (skipped : Int) : Int := (bucket.tdiv skipped).tmod 100
  let clock (yearMonth day hour minute second : Int) : Option Instant :=
    Instant.ofClock? ⟨yearMonth.tdiv 100, yearMonth.tmod 100, day⟩ hour minute second
  match granularity with
  | month => clock bucket 1 0 0 0
  | day => clock (bucket.tdiv 100) (field 1) 0 0 0
  | hour => clock (bucket.tdiv 10000) (field 100) (field 1) 0 0
  | minute => clock (bucket.tdiv 1000000) (field 10000) (field 100) (field 1) 0
  | second => clock (bucket.tdiv 100000000) (field 1000000) (field 10000) (field 100) (field 1)

/-- The start of the window that holds an instant. -/
def floor? (granularity : Granularity) (instant : Instant) : Option Instant :=
  granularity.windowStart? (granularity.bucket instant)

/-- The first and the last bucket of a range of instants, both ends included. A window that the
range cuts off at its end is left out, one that it cuts off at its start is kept.
-/
def resolveRange? (granularity : Granularity) (startMillis endMillis : Int)
    : Option (Int × Int) := do
  let first ← granularity.bucketOfMillis? startMillis
  let afterEnd ← Instant.ofMillis? (endMillis + 1)
  let opening ← granularity.floor? afterEnd
  let last ← granularity.bucketOfMillis? (opening.millis - 1)
  if last < first then none else some (first, last)

end Granularity

end Telemetry
