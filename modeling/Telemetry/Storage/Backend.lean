import Telemetry.Storage.Memory
import Telemetry.Storage.Database

/-!
The kinds of table stores that settings can choose from, and stores of which some tables cannot
be reached for the time being.
-/

namespace Telemetry.Storage

/-- A kind of table store. -/
inductive BackendKind where
  | memory | database
  deriving DecidableEq

namespace BackendKind

def name : BackendKind → String
  | memory => "memory"
  | database => "redb"

def ofName? (text : String) : Option BackendKind :=
  [memory, database].find? (·.name == text)

end BackendKind

/-- A table store of either kind. -/
inductive Backend where
  | memory (store : Memory)
  | database (store : Database)

namespace Backend

def ofKind : BackendKind → Backend
  | .memory => memory {}
  | .database => database {}

/-- The store closed and opened again; only a database keeps its rows. -/
def reopen : Backend → Backend
  | memory _ => memory {}
  | database store => database store.reopen

/-- Runs a call on the store of the right kind. -/
def call {α : Type} (store : Backend) (onMemory : Memory → α × Memory)
    (onDatabase : Database → α × Database)
    : α × Backend :=
  match store with
  | memory store =>
      let (answer, store) := onMemory store
      (answer, memory store)
  | database store =>
      let (answer, store) := onDatabase store
      (answer, database store)

instance : TableStore Backend where
  backend
    | memory store => TableStore.backend store
    | database store => TableStore.backend store
  tableNamespace
    | memory store => store.space
    | database store => store.space
  withNamespace
    | memory store, space => memory { store with space }
    | database store, space => database { store with space }
  install store table :=
    store.call (TableStore.install · table) (TableStore.install · table)
  row?
    | memory store, table, id => TableStore.row? store table id
    | database store, table, id => TableStore.row? store table id
  deleteRange store table column first last :=
    store.call (TableStore.deleteRange · table column first last)
      (TableStore.deleteRange · table column first last)
  execute store operations deadline :=
    store.call (TableStore.execute · operations deadline)
      (TableStore.execute · operations deadline)
  overruns
    | memory store, operations, deadline => TableStore.overruns store operations deadline
    | database store, operations, deadline => TableStore.overruns store operations deadline

end Backend

/-- A table store of which some tables may be out of reach. -/
structure Impaired (S : Type) where
  store : S
  lost : List String := []

namespace Impaired

variable {S : Type} [TableStore S]

/-- The error of a call that names these tables, if one of them is out of reach. -/
def failure? (store : Impaired S) (tables : List String) : Option Error :=
  (tables.find? (store.lost.contains ·)).map fun table =>
    .backendUnavailable (.unreachable (table ++ " is broken"))

/-- Runs a call unless it names a table that is out of reach. -/
def call {α : Type} (store : Impaired S) (tables : List String) (run : S → Except Error α × S)
    : Except Error α × Impaired S :=
  match store.failure? tables with
  | some error => (.error error, store)
  | none =>
      let (answer, reached) := run store.store
      (answer, { store with store := reached })

instance : TableStore (Impaired S) where
  backend store := TableStore.backend store.store
  tableNamespace store := TableStore.tableNamespace store.store
  withNamespace store space :=
    { store with store := TableStore.withNamespace store.store space }
  install store table := store.call [table] (TableStore.install · table)
  row? store table id :=
    match store.failure? [table] with
    | some error => .error error
    | none => TableStore.row? store.store table id
  deleteRange store table column first last :=
    store.call [table] (TableStore.deleteRange · table column first last)
  execute store operations deadline :=
    store.call (operations.map (·.table)) (TableStore.execute · operations deadline)
  overruns store operations deadline :=
    (store.failure? (operations.map (·.table))).isNone
      && TableStore.overruns store.store operations deadline

end Impaired

end Telemetry.Storage
