import Telemetry.Metrics
import Telemetry.Storage.Worker

/-!
The pipeline that hands the operations of a cycle to a table store as one batch, within a time
limit. Whatever becomes of the batch, the pipeline is empty afterwards.
-/

namespace Telemetry.Storage

/-- The deadline of a batch that is worked through and committed at once. -/
def Deadline.undelayed (timeout : Duration) : Deadline :=
  if timeout = 0 then .passed else .ahead

/-- Where batches go. A sink that does not answer in time yields nothing. -/
abbrev BatchSink (σ : Type) := List Operation → Deadline → σ → Option (Except Error Outcome) × σ

namespace BatchSink

/-- The sink that executes batches on a table store. The store works a batch to its end even if
nobody waits for the answer any more.
-/
def store {S : Type} [TableStore S] : BatchSink S := fun operations deadline store =>
  let (answer, left) := TableStore.execute store operations deadline
  (if TableStore.overruns store operations deadline then none else some answer, left)

/-- The sink that takes every operation and stores none. -/
def accepting {σ : Type} : BatchSink σ := fun operations _ state =>
  (some (.ok { applied := operations.length }), state)

/-- The sink that cannot be reached. -/
def failing {σ : Type} (detail : String) : BatchSink σ := fun _ _ state =>
  (some (.error (.backendUnavailable (.unreachable detail))), state)

/-- The sink that never answers. -/
def stuck {σ : Type} : BatchSink σ := fun _ _ state => (none, state)

end BatchSink

/-- Operations on their way to a sink. -/
structure Pipeline where
  timeout : Duration
  pending : List Operation := []

/-- What a flush came to. -/
structure Flush (σ : Type) where
  result : Except Error Outcome
  measurements : List Measurement
  state : σ

namespace Pipeline

def describe (pipeline : Pipeline) : String :=
  "BatchPipeline \x7b timeout: " ++ pipeline.timeout.text ++ ", pending: "
    ++ toString pipeline.pending.length ++ " \x7d"

def extend (pipeline : Pipeline) (operations : List Operation) : Pipeline :=
  { pipeline with pending := pipeline.pending ++ operations }

/-- The pipeline after a flush. -/
def emptied (pipeline : Pipeline) : Pipeline :=
  { pipeline with pending := [] }

/-- The deadline of a flush without delays. -/
def deadline (pipeline : Pipeline) : Deadline :=
  .undelayed pipeline.timeout

/-- The measurement of failures, if there are any. -/
def failures : Except Error Outcome → List Measurement
  | .ok outcome =>
      if outcome.isComplete then []
      else [.count .batchFlushFailures none outcome.failed.length]
  | .error _ => [.count .batchFlushFailures none 1]

/-- Hands the pending operations to a sink. Without any the sink is not called. -/
def flush {σ : Type} (pipeline : Pipeline) (sink : BatchSink σ) (deadline : Deadline) (state : σ)
    : Flush σ :=
  if pipeline.pending.isEmpty then ⟨.ok {}, [], state⟩
  else
    let (answer, state) := sink pipeline.pending deadline state
    let result := answer.getD (.error (.backendUnavailable (.flushTimedOut pipeline.timeout)))
    let measurements :=
      [.count .preparedOperations none pipeline.pending.length, .count .batchFlush none 1,
        .sample .batchFlushDuration] ++ failures result
    ⟨result, measurements, state⟩

end Pipeline

end Telemetry.Storage
