import Telemetry.Storage.TableStore

/-!
A table store in memory. Operations change the tables one after the other as they come, and
deadlines are ignored: the answer is there as soon as the store is asked.
-/

namespace Telemetry.Storage

/-- Tables that are changed in place. -/
structure Memory where
  space : Namespace := {}
  tables : Tables := ∅

namespace Memory

def rowCount (store : Memory) (table : String) : Nat :=
  (store.tables.rows (store.space.qualify table)).size

def isInstalled (store : Memory) (table : String) : Bool :=
  store.tables.contains (store.space.qualify table)

/-- The rows of a table after an operation on one of them, or why there is no such operation. -/
def change (rows : KeyMap Document) (operation : Operation) : Except Rejection (KeyMap Document) :=
  match operation.kind, rows.get? operation.id with
  | .insert, some _ => .error .rowExists
  | .insert, none => .ok (rows.insert operation.id operation.document)
  | .update, some row => .ok (rows.insert operation.id (overwrite row operation.document))
  | .update, none => .error .rowMissing

/-- Applies one operation of a batch, creating its table if need be. -/
def apply (space : Namespace) (state : Tables × Outcome) (operation : Operation)
    : Tables × Outcome :=
  let (tables, outcome) := state
  let name := space.qualify operation.table
  match change (tables.rows name) operation with
  | .ok rows => (tables.insert name rows, outcome.addApplied)
  | .error reason => (tables.ensure name, outcome.addFailed operation reason)

/-- Removes the rows of a table whose column lies in a range. -/
def deleteRange (store : Memory) (table column : String) (first last : Int) : Nat × Memory :=
  let name := store.space.qualify table
  match store.tables.get? name with
  | none => (0, store)
  | some rows =>
      let kept := rows.filter fun _ row => !columnInRange row column first last
      (rows.size - kept.size, { store with tables := store.tables.insert name kept })

/-- Applies the operations of a batch in order. -/
def execute (store : Memory) (operations : List Operation) : Outcome × Memory :=
  let (tables, outcome) := operations.foldl (apply store.space) (store.tables, {})
  (outcome, { store with tables })

instance : TableStore Memory where
  backend _ := "memory"
  tableNamespace := space
  withNamespace store space := { store with space }
  install store table :=
    (.ok (), { store with tables := store.tables.ensure (store.space.qualify table) })
  row? store table id := .ok (store.tables.row? (store.space.qualify table) id)
  deleteRange store table column first last :=
    let (count, store) := deleteRange store table column first last
    (.ok count, store)
  execute store operations _ :=
    let (outcome, store) := execute store operations
    (.ok outcome, store)
  overruns _ _ _ := false

end Memory

end Telemetry.Storage
