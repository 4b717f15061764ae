import Telemetry.Schema

/-!
Merging two observations of one record, column by column under the rules of the schema, and
folding a sequence of observations into one. Strict merging refuses observations that disagree in
a column that is not merged; lenient merging keeps the earlier value.
-/

namespace Telemetry

/-- Whether disagreement in unmerged columns is an error. -/
inductive MergeMode where
  | lenient | strict
  deriving DecidableEq

namespace MergeMode

/-- What an arithmetic rule does with whole numbers. Sums wrap around. -/
def wholeNumbers : MergeRule → Int64 → Int64 → Int64
  | .add, a, b => a + b
  | .max, a, b => if a < b then b else a
  | .min, a, b => if b < a then b else a
  | _, a, _ => a

/-- What an arithmetic rule does with doubles. -/
def doubles : MergeRule → Double → Double → Double
  | .add, a, b => a.add b
  | .max, a, b => a.max b
  | .min, a, b => a.min b
  | _, a, _ => a

/-- The result of an arithmetic rule on two numbers of one type. Narrow numbers are computed in
the wide type and cut back.
-/
def arithmetic? (rule : MergeRule) : ColumnValue → ColumnValue → Option ColumnValue
  | .long a, .long b => some (.long (wholeNumbers rule a b))
  | .integer a, .integer b => some (.integer (wholeNumbers rule a.toInt64 b.toInt64).toInt32)
  | .double a, .double b => some (.double (doubles rule a b))
  | _, _ => none

def mergeValue (mode : MergeMode) (entity id : String) (column : Column)
    (earlier later : ColumnValue)
    : Except Error ColumnValue :=
  match column.rule with
  | .nonMerge =>
      if mode = .strict ∧ !earlier.agrees later then
        .error (.invariantViolation (.diverged entity column.name id earlier later))
      else .ok earlier
  | .coverMerge => .ok later
  | rule =>
      match arithmetic? rule earlier later with
      | some value => .ok value
      | none => .error (.schemaMismatch (.notNumeric rule earlier.type entity column.name))

variable {R : Type} [StreamData R]

/-- The value of a column of the schema, which must be exposed with its type. -/
def readColumn (record : R) (column : Column) : Except Error ColumnValue :=
  let entity := StreamData.entityName R
  match StreamData.column? record column.name with
  | none => .error (.schemaMismatch (.hiddenColumn entity column.name))
  | some value =>
      if value.type = column.type then .ok value
      else .error (.schemaMismatch (.columnType entity column.name column.type value.type))

/-- Merges one column of two observations into a record. -/
def mergeColumn (mode : MergeMode) (existing incoming merged : R) (column : Column)
    : Except Error R := do
  let earlier ← readColumn existing column
  let later ← readColumn incoming column
  let value ← mode.mergeValue (StreamData.entityName R) (StreamData.id existing) column
    earlier later
  StreamData.setColumn merged column.name value

/-- Merges a later observation of a record into an earlier one, in schema order. -/
def merge (mode : MergeMode) (existing incoming : R) : Except Error R :=
  if StreamData.id existing = StreamData.id incoming then
    (StreamData.schema R).columns.foldlM (mode.mergeColumn existing incoming) existing
  else
    .error (.invariantViolation (.differentIds (StreamData.entityName R)
      (StreamData.id existing) (StreamData.id incoming)))

/-- Merges a sequence of observations from the left; an empty one has no result. -/
def fold (mode : MergeMode) : List R → Except Error (Option R)
  | [] => .ok none
  | first :: rest => (rest.foldlM mode.merge first).map some

end MergeMode

end Telemetry
