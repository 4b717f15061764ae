import Telemetry.Document.Value

/-!
Write operations on single rows, and what becomes of a batch of them.
-/

namespace Telemetry.Storage

/-- Whether an operation creates a row or changes one. -/
inductive OperationKind where
  | insert | update
  deriving DecidableEq

namespace OperationKind

def name : OperationKind → String
  | insert => "insert"
  | update => "update"

end OperationKind

/-- An insert, which brings a whole row, or an update, which brings the columns to overwrite. -/
structure Operation where
  kind : OperationKind
  table : String
  id : String
  document : Document

namespace Operation

def describe (operation : Operation) : String :=
  operation.kind.name ++ " " ++ operation.table ++ "/" ++ operation.id

end Operation

/-- Why an operation leaves its row alone. -/
inductive Rejection where
  | rowExists | rowMissing
  deriving DecidableEq

namespace Rejection

def message : Rejection → String
  | rowExists => "row already exists"
  | rowMissing => "row does not exist"

end Rejection

/-- An operation that was rejected. -/
structure FailedOperation where
  table : String
  id : String
  reason : Rejection
  deriving DecidableEq

/-- What became of the operations of a batch, the rejected ones in submission order. -/
structure Outcome where
  applied : Nat := 0
  failed : List FailedOperation := []
  deriving DecidableEq

namespace Outcome

/-- Whether no operation was rejected. -/
def isComplete (outcome : Outcome) : Bool :=
  outcome.failed.isEmpty

/-- The outcome after one more applied operation. -/
def addApplied (outcome : Outcome) : Outcome :=
  { outcome with applied := outcome.applied + 1 }

/-- The outcome after one more rejected operation. -/
def addFailed (outcome : Outcome) (operation : Operation) (reason : Rejection) : Outcome :=
  { outcome with failed := outcome.failed ++ [⟨operation.table, operation.id, reason⟩] }

end Outcome

/-- The row after an update overwrote some of its columns. -/
def overwrite (row columns : Document) : Document :=
  row.insertAll columns.entries

/-- Whether a column of a row holds an integer of a range, both ends included. -/
def columnInRange (row : Document) (column : String) (first last : Int) : Bool :=
  match (row.get? column).bind Value.signed64? with
  | some number => first ≤ number && number ≤ last
  | none => false

end Telemetry.Storage
