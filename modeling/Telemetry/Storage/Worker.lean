import Telemetry.Merge
import Telemetry.Metrics
import Telemetry.Storage.Descriptor

/-!
Workers gather the records of one table between two flushes. Records of one id are merged while
they are staged; draining a worker turns every staged record into an insert, or into an update
with the row that is stored already.
-/

namespace Telemetry.Storage

/-- The records staged for a table, one for each id. -/
structure Worker (R : Type) where
  descriptor : Descriptor
  mode : MergeMode
  staged : KeyMap R := ∅

namespace Worker

variable {R S : Type} [StreamData R] [TableStore S]

def pending (worker : Worker R) : Nat :=
  worker.staged.size

/-- What staging a record came to. -/
inductive Ingested where
  | staged | merged
  deriving DecidableEq

/-- The measurements of staging a record for a table. -/
def Ingested.measurements (table : String) : Ingested → List Measurement
  | staged => []
  | merged => [.count .recordsMerged (some table) 1]

/-- Stages a record, merged into the one of its id if there is one. A failed merge leaves the
worker as it was.
-/
def ingest (worker : Worker R) (record : R) : Except Error (Ingested × Worker R) := do
  let id := StreamData.id record
  match worker.staged.get? id with
  | none => pure (.staged, { worker with staged := worker.staged.insert id record })
  | some earlier =>
      let merged ← worker.mode.merge earlier record
      pure (.merged, { worker with staged := worker.staged.insert id merged })

/-- The operation for a staged record, given the rows stored now. -/
def prepare (worker : Worker R) (store : S) (record : R) : Except Error Operation := do
  match ← worker.descriptor.fetch R store (StreamData.id record) with
  | some persisted => worker.descriptor.prepareUpdate (← worker.mode.merge persisted record)
  | none => worker.descriptor.prepareInsert record

/-- The operations for all staged records. That they come in ascending order of their ids is a
choice, and makes no difference, as they are about different rows. A record that cannot be prepared
is dropped.
-/
def operations (worker : Worker R) (store : S) : List Operation :=
  worker.staged.entries.filterMap fun entry => (worker.prepare store entry.2).toOption

def cleared (worker : Worker R) : Worker R :=
  { worker with staged := ∅ }

end Worker

end Telemetry.Storage
