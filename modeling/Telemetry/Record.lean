import Telemetry.Document.Fields
import Telemetry.Schema

/-!
Records of declared entities. An entity is a schema whose columns have different names, hold the
identity of the record in `id` and its time bucket in a column of numbers; a record holds one value
of the right type for every column.
-/

namespace Telemetry

/-- A schema by which records can be identified and dated. -/
structure Entity extends Schema where
  timeBucket : String
  distinct : (columns.map (·.name)).Nodup := by decide
  identified : columns.any (fun column => column.name = "id" && column.type = .string) := by decide
  dated : columns.any (fun column => column.name = timeBucket && column.type.isNumeric) := by decide

/-- One value for each column of an entity, of the column's type. -/
structure Record (entity : Entity) where
  values : List ColumnValue
  typed : values.map (·.type) = entity.columns.map (·.type)
  deriving DecidableEq

namespace Record

variable {entity : Entity}

def cells (record : Record entity) : List (Column × ColumnValue) :=
  entity.columns.zip record.values

/-- The record that holds empty texts and bytes and zeros. -/
def blank (entity : Entity) : Record entity where
  values := entity.columns.map fun column => .blank column.type
  typed := by simp [ColumnValue.type_blank, Function.comp_def]

def column? (record : Record entity) (name : String) : Option ColumnValue :=
  (record.cells.find? (·.1.name == name)).map (·.2)

/-- Replaces the values of the columns of a name and type. -/
def replace (name : String) (value : ColumnValue) (column : Column) (old : ColumnValue)
    : ColumnValue :=
  if column.name = name ∧ column.type = value.type then value else old

theorem types_zipWith_replace (name : String) (value : ColumnValue) (columns : List Column)
    (values : List ColumnValue) (h : values.map (·.type) = columns.map (·.type))
    : (columns.zipWith (replace name value) values).map (·.type) = columns.map (·.type) := by
  induction columns generalizing values with
  | nil => simp
  | cons column rest ih =>
      cases values with
      | nil => simp at h
      | cons old values =>
          simp only [List.map_cons, List.cons.injEq] at h
          rw [List.zipWith_cons_cons, List.map_cons, List.map_cons, ih values h.2]
          congr 1
          rw [replace]
          split
          · next eq => exact eq.2.symm
          · exact h.1

/-- The record with the value of a column replaced by one of the same type. -/
def setColumn (record : Record entity) (name : String) (value : ColumnValue)
    : Except Error (Record entity) :=
  match entity.column? name with
  | none => .error (.schemaMismatch (.unknownColumn entity.entity name))
  | some column =>
      if column.type = value.type then
        .ok ⟨entity.columns.zipWith (replace name value) record.values,
          types_zipWith_replace name value _ _ record.typed⟩
      else .error (.schemaMismatch (.columnType entity.entity name column.type value.type))

def id (record : Record entity) : String :=
  match record.column? "id" with
  | some (.string text) => text
  | _ => ""

/-- The time bucket of a record, as a signed 64-bit word. -/
def timeBucket (record : Record entity) : Int :=
  match record.column? entity.timeBucket with
  | some (.long number) => number.toInt
  | some (.integer number) => number.toInt
  | some (.double number) => number.toWord
  | _ => 0

/-- The plain form of a value. A double that is not a number or infinite has none and becomes
null.
-/
def encodeValue : ColumnValue → Value
  | .string text => .text text
  | .long number => .int number.toInt
  | .integer number => .int number.toInt
  | .double number => if number.isFinite then .float number else .null
  | .byte bytes => .list (bytes.map fun b => .int b.toNat)

/-- A byte of a plain value. -/
def decodeByte? (value : Value) : Option UInt8 :=
  (value.natOfBits? 8).map UInt8.ofNat

/-- Reads a plain value as a value of a type. Whole numbers are accepted for doubles. -/
def decodeValue? : ColumnType → Value → Option ColumnValue
  | .string, .text text => some (.string text)
  | .long, value => (value.intWithin? (-2 ^ 63) (2 ^ 63 - 1)).map fun n => .long (.ofInt n)
  | .integer, value => (value.intWithin? (-2 ^ 31) (2 ^ 31 - 1)).map fun n => .integer (.ofInt n)
  | .double, .float number => some (.double number)
  | .double, .int number => some (.double (.ofInt number))
  | .byte, .list items => (items.mapM decodeByte?).map .byte
  | _, _ => none

theorem type_of_decodeValue? {type : ColumnType} {value : Value} {read : ColumnValue}
    (h : decodeValue? type value = some read)
    : read.type = type := by
  unfold decodeValue? at h
  split at h
  · cases h; rfl
  · obtain ⟨_, _, rfl⟩ := Option.map_eq_some_iff.mp h; rfl
  · obtain ⟨_, _, rfl⟩ := Option.map_eq_some_iff.mp h; rfl
  · cases h; rfl
  · cases h; rfl
  · obtain ⟨_, _, rfl⟩ := Option.map_eq_some_iff.mp h; rfl
  · cases h

/-- Reads one value for each column. -/
def decodeColumns? : (columns : List Column) → List Value
    → Option { values : List ColumnValue // values.map (·.type) = columns.map (·.type) }
  | [], [] => some ⟨[], rfl⟩
  | column :: columns, value :: values =>
      match h : decodeValue? column.type value, decodeColumns? columns values with
      | some read, some rest =>
          some ⟨read :: rest.val, by simp [type_of_decodeValue? h, rest.property]⟩
      | _, _ => none
  | _, _ => none

/-- The document of a record: its columns in plain form. -/
def document (record : Record entity) : Document :=
  .ofList (record.cells.map fun cell => (cell.1.name, encodeValue cell.2))

/-- Reads a record from a plain value that holds all its columns. -/
def decode? (value : Value) : Option (Record entity) := do
  let values ← value.requiredFields? entity.names
  let read ← decodeColumns? entity.columns values
  some ⟨read.val, read.property⟩

instance : StreamData (Record entity) where
  schema := entity.toSchema
  blank := .blank entity
  id := id
  timeBucket := timeBucket
  column? := column?
  setColumn := setColumn
  encode record := .ofDocument record.document
  decode? := decode?

end Record

end Telemetry
