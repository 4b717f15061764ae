import Telemetry.Document.Reread
import Telemetry.Storage.TableStore

/-!
A transactional table store. Every write runs in a transaction, which reads its own writes before
the committed tables; a commit carries the writes over, and a transaction that is dropped leaves
no trace. A batch whose deadline has passed when it has been worked through is dropped; a commit
that has begun is not called off. Rows are kept as JSON texts: the tables hold the documents that
these were written from, and a row whose text cannot be read fails every call that has to read it.
-/

namespace Telemetry.Storage

/-- A row to store, or to remove if there is no document. -/
structure Write where
  table : String
  id : String
  document : Option Document

namespace Write

/-- Carries a write over to the tables. -/
def carryOver (tables : Tables) (write : Write) : Tables :=
  match write.document with
  | some document => tables.insert write.table ((tables.rows write.table).insert write.id document)
  | none => tables.insert write.table ((tables.rows write.table).erase write.id)

end Write

/-- Writes that are not committed yet, the latest first, and the tables they start from. -/
structure Transaction where
  committed : Tables
  opened : List String := []
  writes : List Write := []

namespace Transaction

/-- Opens a table, which exists from then on. -/
def openTable (transaction : Transaction) (name : String) : Transaction :=
  { transaction with opened := name :: transaction.opened }

def row? (transaction : Transaction) (name id : String) : Option Document :=
  match transaction.writes.find? fun write => write.table = name && write.id = id with
  | some write => write.document
  | none => transaction.committed.row? name id

/-- Stores a row as the text of a document. -/
def put (transaction : Transaction) (name id : String) (document : Document) : Transaction :=
  { transaction with writes := ⟨name, id, some document⟩ :: transaction.writes }

def remove (transaction : Transaction) (name id : String) : Transaction :=
  { transaction with writes := ⟨name, id, none⟩ :: transaction.writes }

/-- The tables with the opened ones created and the writes carried over in order. -/
def commit (transaction : Transaction) : Tables :=
  transaction.writes.reverse.foldl Write.carryOver
    (transaction.opened.foldl Tables.ensure transaction.committed)

end Transaction

/-- Tables that change by transactions alone. -/
structure Database where
  space : Namespace := {}
  committed : Tables := ∅

namespace Database

/-- A transaction on the committed tables. -/
def begin (store : Database) : Transaction :=
  { committed := store.committed }

/-- Reads the text that a document was written as. -/
def read (document : Document) : Except Error Document :=
  match document.reread? with
  | some document => .ok document
  | none => .error .undecodable

/-- Works one operation of a batch into a transaction. Only an update reads the row that it
changes; to an insert it matters whether there is one.
-/
def stage (space : Namespace) (state : Transaction × Outcome) (operation : Operation)
    : Except Error (Transaction × Outcome) := do
  let name := space.qualify operation.table
  let transaction := state.1.openTable name
  match operation.kind, transaction.row? name operation.id with
  | .insert, some _ => return (transaction, state.2.addFailed operation .rowExists)
  | .insert, none =>
      return (transaction.put name operation.id operation.document, state.2.addApplied)
  | .update, some row =>
      let document := overwrite (← read row) operation.document
      return (transaction.put name operation.id document, state.2.addApplied)
  | .update, none => return (transaction, state.2.addFailed operation .rowMissing)

/-- Executes a batch in one transaction. It is dropped if a row cannot be read, or if the deadline
has passed when all operations are worked in.
-/
def execute (store : Database) (operations : List Operation) (deadline : Deadline)
    : Except Error Outcome × Database :=
  match operations.foldlM (stage store.space) (store.begin, {}) with
  | .error error => (.error error, store)
  | .ok (transaction, outcome) =>
      if deadline = .passed then (.error (.backendUnavailable .deadlinePassed), store)
      else (.ok outcome, { store with committed := transaction.commit })

/-- Whether a batch is answered after its deadline: it has passed already when the batch has been
worked through, or it passes while the batch is committed.
-/
def overruns (store : Database) (operations : List Operation) : Deadline → Bool
  | .unlimited | .ahead => false
  | .duringCommit => (store.execute operations .duringCommit).1.isOk
  | .passed => true

/-- Scans a table for rows whose column lies in a range and removes them in one transaction, which
is dropped if a row of the table cannot be read.
-/
def deleteRange (store : Database) (table column : String) (first last : Int)
    : Except Error Nat × Database :=
  let name := store.space.qualify table
  let scan := (store.committed.rows name).entries.mapM fun entry =>
    (read entry.2).map (entry.1, ·)
  match scan with
  | .error error => (.error error, store)
  | .ok rows =>
      let doomed := rows.filter fun entry => columnInRange entry.2 column first last
      let transaction := doomed.foldl (fun acc entry => acc.remove name entry.1)
        (store.begin.openTable name)
      (.ok doomed.length, { store with committed := transaction.commit })

/-- The database opened anew: the rows stay and the namespace is open again. -/
def reopen (store : Database) : Database :=
  { store with space := {} }

instance : TableStore Database where
  backend _ := "redb"
  tableNamespace := space
  withNamespace store space := { store with space }
  install store table :=
    (.ok (), { store with
      committed := (store.begin.openTable (store.space.qualify table)).commit })
  row? store table id := (store.committed.row? (store.space.qualify table) id).mapM read
  deleteRange := deleteRange
  execute := execute
  overruns := overruns

end Database

end Telemetry.Storage
