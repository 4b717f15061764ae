import Telemetry.Storage.Pipeline
import Telemetry.Storage.Sweep

/-!
A set of tables with their workers, and the cycle that drains some of them into one batch. The
records of a table belong to one member of a family of record types.
-/

namespace Telemetry.Storage

/-- A table with its worker, and the member of the family that its records belong to. -/
structure Table {ι : Type} (Carrier : ι → Type) where
  kind : ι
  worker : Worker (Carrier kind)

abbrev TableSet {ι : Type} (Carrier : ι → Type) := KeyMap (Table Carrier)

structure Cycle {ι : Type} (Carrier : ι → Type) (σ : Type) where
  flush : Flush σ
  tables : TableSet Carrier

variable {ι : Type} {Carrier : ι → Type} [∀ kind, StreamData (Carrier kind)]
variable {S : Type} [TableStore S]

namespace Table

def descriptor (table : Table Carrier) : Descriptor :=
  table.worker.descriptor

/-- The operations for everything that is staged, given the rows stored now. -/
def operations (table : Table Carrier) (store : S) : List Operation :=
  table.worker.operations store

def cleared (table : Table Carrier) : Table Carrier :=
  { table with worker := table.worker.cleared }

end Table

namespace TableSet

/-- Drains the tables of some names one after the other. -/
def drain (store : S) : List String → TableSet Carrier → List Operation × TableSet Carrier
  | [], tables => ([], tables)
  | name :: rest, tables =>
      match tables.get? name with
      | none => drain store rest tables
      | some table =>
          let (later, tables) := drain store rest (tables.insert name table.cleared)
          (table.operations store ++ later, tables)

/-- Drains the tables of some names and flushes their operations in one batch. Unless it is said
how the flush fares with its deadline, there are no delays.
-/
def cycle (tables : TableSet Carrier) (names : List String) (timeout : Duration)
    (sink : BatchSink S) (store : S) (deadline : Deadline := .undelayed timeout)
    : Cycle Carrier S :=
  let (operations, tables) := drain store names tables
  let pipeline := Pipeline.extend ⟨timeout, []⟩ operations
  ⟨pipeline.flush sink deadline store, tables⟩

/-- The tables of some names as targets of a sweep. -/
def targets (S : Type) [TableStore S] (tables : TableSet Carrier) (names : List String)
    : List (Target S) :=
  names.filterMap fun name => (tables.get? name).map (·.descriptor.target)

end TableSet

end Telemetry.Storage
