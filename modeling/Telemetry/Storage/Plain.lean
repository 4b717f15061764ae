import Telemetry.Document.Fields
import Telemetry.Storage.Sweep

/-!
The plain forms in which operations are handed in, and in which outcomes, sweeps and totals are
reported.
-/

namespace Telemetry

/-- A list of texts in plain form. -/
def Value.texts (texts : List String) : Value :=
  .list (texts.map .text)

namespace Storage

def OperationKind.ofName? (text : String) : Option OperationKind :=
  [insert, update].find? (·.name == text)

namespace Operation

def encode (operation : Operation) : Value :=
  .object [("kind", .text operation.kind.name), ("table", .text operation.table),
    ("id", .text operation.id), ("document", .ofDocument operation.document)]

def decode? (value : Value) : Option Operation := do
  match ← value.requiredFields? ["kind", "table", "id", "document"] with
  | [kind, table, id, .object fields] =>
      some ⟨← OperationKind.ofName? (← kind.text?), ← table.text?, ← id.text?, .ofList fields⟩
  | _ => none

end Operation

def Retention.encode (retention : Retention) : Value :=
  .texts [retention.column, retention.granularity.name]

def Descriptor.report (descriptor : Descriptor) : Value :=
  .object [("table", .text descriptor.table),
    ("retention", descriptor.retention.elim .null Retention.encode),
    ("insertable", .bool descriptor.insertable),
    ("update_columns", descriptor.updateColumns.elim .null .texts)]

def FailedOperation.encode (failed : FailedOperation) : Value :=
  .object [("table", .text failed.table), ("id", .text failed.id),
    ("reason", .text failed.reason.message)]

def Outcome.encode (outcome : Outcome) : Value :=
  .object [("applied", .int outcome.applied), ("failed", .list (outcome.failed.map (·.encode))),
    ("complete", .bool outcome.isComplete)]

namespace Outcome

/-- The order of rejected operations by table, id and reason. -/
def failureLe (a b : FailedOperation) : Bool :=
  ((compare a.table b.table).then <| (compare a.id b.id).then <|
    compare a.reason.message b.reason.message).isLE

/-- The outcome with the rejected operations in the order of their tables and ids. -/
def sorted (outcome : Outcome) : Outcome :=
  { outcome with failed := outcome.failed.mergeSort failureLe }

end Outcome

def SweepReport.encode (report : SweepReport) : Value :=
  .object [("elected", .bool report.elected), ("end_millis", .int report.endMillis),
    ("deleted", .int report.deleted), ("swept_tables", .int report.sweptTables),
    ("failed_tables", .texts report.failedTables)]

end Storage

namespace Metrics

/-- The plain form of values by name. -/
def encodeSeries {α : Type} (encode : α → Value) (series : KeyMap α) : Value :=
  .ofDocument (series.mapValues fun _ value => encode value)

def encode (metrics : Metrics) : Value :=
  .object [("counters", encodeSeries (fun n : Nat => .int n) metrics.counters),
    ("gauges", encodeSeries .int metrics.gauges),
    ("histogram_samples", encodeSeries (fun n : Nat => .int n) metrics.samples)]

/-- The plain form of metrics of one sort with their descriptions. -/
def describeAll (sort : String) (metrics : List Metric) : List (String × Value) :=
  metrics.map fun metric => (metric.name, .texts [sort, metric.description])

/-- The plain form of the descriptions of all metrics. -/
def descriptions : Value :=
  .object (describeAll "counter" Metric.counters ++ describeAll "gauge" Metric.gauges ++
    describeAll "histogram" Metric.histograms)

end Metrics

end Telemetry
