import Telemetry.Storage.Namespace
import Telemetry.Storage.Operation

/-!
The interface of table stores. Calls name tables by their logical names; a store keeps them under
the names that its namespace makes of these.
-/

namespace Telemetry.Storage

/-- When the time that a caller allows for a batch is over. A store that heeds it looks once, when
the batch has been worked through and before it is committed.
-/
inductive Deadline where
  | unlimited
  | ahead
  /-- The time is still on when the store looks, and over before the commit is done. -/
  | duringCommit
  | passed
  deriving DecidableEq

/-- A store of tables, whose rows are documents by id. -/
class TableStore (S : Type) where
  /-- The name of the kind of store. -/
  backend : S → String
  tableNamespace : S → Namespace
  withNamespace : S → Namespace → S
  install : S → String → Except Error Unit × S
  row? : S → String → String → Except Error (Option Document)
  /-- Removes the rows of a table whose column lies in a range and counts them. -/
  deleteRange : S → String → String → Int → Int → Except Error Nat × S
  execute : S → List Operation → Deadline → Except Error Outcome × S
  /-- Whether the answer to a batch comes after the time that the caller allows for it. -/
  overruns : S → List Operation → Deadline → Bool

namespace TableStore

variable {S : Type} [TableStore S]

def fixNamespace (store : S) (text : String) : Except Error Unit × S :=
  match (tableNamespace store).fix text with
  | .ok space => (.ok (), withNamespace store space)
  | .error error => (.error error, store)

end TableStore

/-- The tables of a store by the names under which it keeps them. -/
abbrev Tables := KeyMap (KeyMap Document)

namespace Tables

/-- A row of a table; tables that do not exist have no rows. -/
def row? (tables : Tables) (name id : String) : Option Document :=
  (tables.get? name).bind (·.get? id)

/-- The rows of a table; a table that does not exist has none. -/
def rows (tables : Tables) (name : String) : KeyMap Document :=
  (tables.get? name).getD ∅

/-- Creates a table unless it exists. -/
def ensure (tables : Tables) (name : String) : Tables :=
  tables.insert name (tables.rows name)

end Tables

end Telemetry.Storage
