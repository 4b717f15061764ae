import Telemetry.KeyMap

/-!
The measurements that storing and expiring records yields, and the totals that they add up to.
-/

namespace Telemetry

/-- A named quantity with its description. -/
structure Metric where
  name : String
  description : String
  deriving DecidableEq

namespace Metric

/-- Records that were merged into a staged one, counted by table. -/
def recordsMerged : Metric :=
  ⟨"apm_collector_records_merged_total",
    "Observations folded into an already staged record of the same id"⟩

/-- Operations that went into batches. -/
def preparedOperations : Metric :=
  ⟨"apm_collector_prepared_operations_total",
    "Insert and update operations handed to the batch pipeline"⟩

/-- Batches handed to a sink. -/
def batchFlush : Metric :=
  ⟨"apm_collector_batch_flush_total", "Batch flushes submitted to the storage backend"⟩

/-- Operations rejected in batches, and batches that failed as a whole. -/
def batchFlushFailures : Metric :=
  ⟨"apm_collector_batch_flush_failures_total",
    "Batch flushes or single batched operations rejected by the backend"⟩

/-- The time that a batch took. -/
def batchFlushDuration : Metric :=
  ⟨"apm_collector_batch_flush_duration_seconds", "Duration of one batch flush in seconds"⟩

/-- Rows that sweeps removed, counted by table. -/
def retentionDeleted : Metric :=
  ⟨"apm_collector_retention_deleted_total", "Rows removed by the retention sweeper"⟩

/-- Tables that failed in sweeps. -/
def retentionFailures : Metric :=
  ⟨"apm_collector_retention_failures_total", "Tables whose retention delete failed during a sweep"⟩

/-- Whether the last sweep was run by the elected instance. -/
def retentionElectionState : Metric :=
  ⟨"apm_collector_retention_election_state",
    "Whether this instance runs the retention sweep (0=standby,1=elected)"⟩

/-- The metrics that only grow. -/
def counters : List Metric :=
  [recordsMerged, preparedOperations, batchFlush, batchFlushFailures, retentionDeleted,
    retentionFailures]

/-- The metrics that hold the last value written. -/
def gauges : List Metric := [retentionElectionState]

/-- The metrics of which samples are counted. -/
def histograms : List Metric := [batchFlushDuration]

end Metric

inductive Measurement where
  | count (metric : Metric) (table : Option String) (amount : Nat)
  | level (metric : Metric) (value : Int)
  | sample (metric : Metric)
  deriving DecidableEq

/-- The totals of the measurements so far. -/
structure Metrics where
  counters : KeyMap Nat := ∅
  gauges : KeyMap Int := ∅
  samples : KeyMap Nat := ∅

namespace Metrics

/-- The name of a counter, with its table if it is counted by table. -/
def seriesName (metric : Metric) : Option String → String
  | none => metric.name
  | some table => metric.name ++ "\x7btable=" ++ table ++ "\x7d"

def record (metrics : Metrics) : Measurement → Metrics
  | .count metric table amount =>
      let name := seriesName metric table
      let total := (metrics.counters.get? name).getD 0 + amount
      { metrics with counters := metrics.counters.insert name total }
  | .level metric value =>
      { metrics with gauges := metrics.gauges.insert metric.name value }
  | .sample metric =>
      let total := (metrics.samples.get? metric.name).getD 0 + 1
      { metrics with samples := metrics.samples.insert metric.name total }

def recordAll (metrics : Metrics) (measurements : List Measurement) : Metrics :=
  measurements.foldl record metrics

end Metrics

end Telemetry
