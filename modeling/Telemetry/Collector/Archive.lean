import Telemetry.Collector.StreamRecord
import Telemetry.Storage.TableSet

/-!
The tables of a collector over one table store. Every kind of records has the tables of its
layout, each with a worker, and all of them take part in cycles and sweeps.
-/

namespace Telemetry.Collector

open Storage

def RecordKind.descriptors (kind : RecordKind) : List Descriptor :=
  kind.layout.descriptors

/-- The table of a kind at a granularity, if it is kept there. -/
def RecordKind.tableName? (kind : RecordKind) (granularity : Option Granularity)
    : Option String :=
  match kind.layout, granularity with
  | .levels base granularities, some granularity =>
      if granularities.contains granularity then some (granularity.tableName base) else none
  | .single descriptor, none => some descriptor.table
  | _, _ => none

/-- All tables with the kinds of their records, in the order in which they are set up. -/
def allTables : List (RecordKind × Descriptor) :=
  RecordKind.all.flatMap fun kind => kind.descriptors.map (kind, ·)

/-- The names of all tables in order. -/
def tableNames : List String :=
  allTables.map (·.2.table)

/-- Tables by name over a store. -/
structure Archive (S : Type) where
  store : S
  tables : TableSet RecordKind.Carrier

structure ArchiveCycle (S : Type) where
  result : Except Error Outcome
  measurements : List Measurement
  archive : Archive S

structure ArchiveSweep (S : Type) where
  report : SweepReport
  measurements : List Measurement
  archive : Archive S

namespace Archive

variable {S : Type} [TableStore S]

/-- All tables over a store, with nothing staged. -/
def onStore (store : S) (mode : MergeMode) : Archive S where
  store := store
  tables := .ofList (allTables.map fun (kind, descriptor) =>
    (descriptor.table, ⟨kind, { descriptor, mode }⟩))

/-- Installs all tables; those that cannot be installed are left out. -/
def install (archive : Archive S) : Archive S :=
  { archive with store := tableNames.foldl (fun store table =>
      (TableStore.install store table).2) archive.store }

/-- The worker of a table that holds records of a kind. -/
def worker? (archive : Archive S) (kind : RecordKind) (table : String)
    : Option (Worker kind.Carrier) := do
  let found ← archive.tables.get? table
  if same : found.kind = kind then some (same ▸ found.worker) else none

/-- The error that no table of a name holds records of a kind. -/
def missing (table : String) : Error :=
  .serviceNotProvided "storage" table

def ingest (archive : Archive S) (kind : RecordKind) (table : String) (record : kind.Carrier)
    : Except Error (List Measurement × Archive S) := do
  match archive.worker? kind table with
  | none => throw (missing table)
  | some worker =>
      let (what, worker) ← worker.ingest record
      let tables := archive.tables.insert table ⟨kind, worker⟩
      return (what.measurements table, { archive with tables })

def fetch (archive : Archive S) (kind : RecordKind) (table id : String)
    : Except Error (Option kind.Carrier) :=
  match archive.worker? kind table with
  | none => .error (missing table)
  | some worker => worker.descriptor.fetch kind.Carrier archive.store id

/-- Drains all tables and flushes their operations in one batch. -/
def cycle (archive : Archive S) (timeout : Duration) (deadline : Deadline := .undelayed timeout)
    : ArchiveCycle S :=
  let cycle :=
    TableSet.cycle archive.tables tableNames timeout BatchSink.store archive.store deadline
  ⟨cycle.flush.result, cycle.flush.measurements, ⟨cycle.flush.state, cycle.tables⟩⟩

/-- Sweeps all tables at an instant, if the registration is the elected one. -/
def sweep (archive : Archive S) (view : Cluster.View) (registration : Cluster.Registration)
    (ttlDays : Nat) (now : Instant)
    : ArchiveSweep S :=
  let targets := TableSet.targets S archive.tables tableNames
  let swept := Storage.sweep targets view registration ttlDays now archive.store
  ⟨swept.report, swept.measurements, { archive with store := swept.state }⟩

def row? (archive : Archive S) (table id : String) : Except Error (Option Document) :=
  TableStore.row? archive.store table id

/-- Executes a batch without a deadline. -/
def execute (archive : Archive S) (operations : List Operation)
    : Except Error Outcome × Archive S :=
  let (result, store) := TableStore.execute archive.store operations .unlimited
  (result, { archive with store })

end Archive

end Telemetry.Collector
