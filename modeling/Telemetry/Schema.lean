import Telemetry.Error

/-!
Schemas of stream records, and the interface by which the collector handles records of any kind:
their identity, their time bucket, their columns by name, and their plain form.
-/

namespace Telemetry

structure Schema where
  entity : String
  columns : List Column
  deriving DecidableEq

namespace Schema

def column? (schema : Schema) (name : String) : Option Column :=
  schema.columns.find? (·.name == name)

/-- The columns of a type, in order. -/
def columnsOf (schema : Schema) (type : ColumnType) : List Column :=
  schema.columns.filter (·.type == type)

def names (schema : Schema) : List String :=
  schema.columns.map (·.name)

end Schema

/-- Records that the collector can merge and store. -/
class StreamData (R : Type) where
  schema : Schema
  /-- A record whose columns hold nothing yet. -/
  blank : R
  id : R → String
  timeBucket : R → Int
  column? : R → String → Option ColumnValue
  setColumn : R → String → ColumnValue → Except Error R
  /-- The plain form of a record, an object for every record that can be stored. -/
  encode : R → Value
  decode? : Value → Option R

def StreamData.entityName (R : Type) [StreamData R] : String :=
  (StreamData.schema R).entity

/-- The record with the given values in its columns, set one after the other on a blank one. -/
def StreamData.ofColumns {R : Type} [StreamData R] (values : List (String × ColumnValue))
    : Except Error R :=
  values.foldlM (fun record (name, value) => setColumn record name value) blank

end Telemetry
