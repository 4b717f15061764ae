import Telemetry.Granularity
import Telemetry.Schema
import Telemetry.Storage.TableStore

/-!
How a table holds the records of an entity: which operations its rows allow, which columns an
update writes, and by which column old rows are found.
-/

namespace Telemetry.Storage

/-- The column of time buckets by which rows expire. -/
structure Retention where
  column : String
  granularity : Granularity
  deriving DecidableEq

/-- A table and its rules. -/
structure Descriptor where
  table : String
  retention : Option Retention
  /-- Whether records may create rows. -/
  insertable : Bool
  /-- The columns that updates write, all of them if there is no list. -/
  updateColumns : Option (List String)
  deriving DecidableEq

namespace Descriptor

/-- A table of whole records by time bucket. -/
def bucketed (table : String) (granularity : Granularity) : Descriptor where
  table := table
  retention := some ⟨"time_bucket", granularity⟩
  insertable := true
  updateColumns := none

/-- A table whose rows are created elsewhere and updated in some columns. -/
def inPlace (table : String) (updateColumns : List String) : Descriptor where
  table := table
  retention := none
  insertable := false
  updateColumns := some updateColumns

/-- A retention as it stands in messages. -/
def describeRetention : Option Retention → String
  | none => "None"
  | some ⟨column, granularity⟩ =>
      "Some(Retention \x7b column: " ++ Text.quote column ++ ", granularity: " ++ granularity.title
        ++ " \x7d)"

/-- A list of columns as it stands in messages. -/
def describeColumns : Option (List String) → String
  | none => "None"
  | some columns => "Some(" ++ Text.bracketed (columns.map Text.quote) ++ ")"

def describe (descriptor : Descriptor) : String :=
  "EntityDescriptor \x7b table: " ++ Text.quote descriptor.table
    ++ ", retention: " ++ describeRetention descriptor.retention
    ++ ", insertable: " ++ (if descriptor.insertable then "true" else "false")
    ++ ", update_columns: " ++ describeColumns descriptor.updateColumns ++ " \x7d"

/-- The table of a descriptor on a backend, as it stands in messages. -/
def describeOn (descriptor : Descriptor) (backend : String) : String :=
  "PersistenceHandler \x7b backend: " ++ Text.quote backend ++ ", descriptor: "
    ++ descriptor.describe ++ " \x7d"

variable {R S : Type} [StreamData R] [TableStore S]

def fetch (R : Type) [StreamData R] (descriptor : Descriptor) (store : S) (id : String)
    : Except Error (Option R) := do
  match ← TableStore.row? store descriptor.table id with
  | none => pure none
  | some document =>
      match StreamData.decode? (.ofDocument document) with
      | some record => pure (some record)
      | none => .error .undecodable

def encode (record : R) : Except Error Document :=
  match StreamData.encode record with
  | .object fields => .ok (.ofList fields)
  | other => .error (.schemaMismatch (.notAnObject (StreamData.entityName R) other))

/-- The operation that creates the row of a record. -/
def prepareInsert (descriptor : Descriptor) (record : R) : Except Error Operation := do
  if !descriptor.insertable then
    .error (.invariantViolation (.notInsertable descriptor.table (StreamData.id record)))
  else
    let document ← encode record
    pure ⟨.insert, descriptor.table, StreamData.id record, document⟩

/-- The columns of a document that updates write. -/
def restrict (descriptor : Descriptor) (document : Document) : Document :=
  match descriptor.updateColumns with
  | none => document
  | some columns => document.filter fun column _ => columns.contains column

/-- The operation that changes the row of a record. -/
def prepareUpdate (descriptor : Descriptor) (record : R) : Except Error Operation := do
  let document ← encode record
  pure ⟨.update, descriptor.table, StreamData.id record, descriptor.restrict document⟩

/-- Removes the rows whose windows lie in a range of instants and counts them. A table without
retention, or a range without a whole window, loses nothing.
-/
def deleteHistory (descriptor : Descriptor) (startMillis endMillis : Int) (store : S)
    : Except Error Nat × S :=
  match descriptor.retention with
  | none => (.ok 0, store)
  | some retention =>
      match retention.granularity.resolveRange? startMillis endMillis with
      | none => (.ok 0, store)
      | some (first, last) =>
          TableStore.deleteRange store descriptor.table retention.column first last

end Descriptor

end Telemetry.Storage
