import Telemetry.Document.Value
import Telemetry.Text.Quoted

/-!
Columns of stream records: the types of their values and the rules by which the values of two
observations of one record become one.
-/

namespace Telemetry

inductive ColumnType where
  | string | long | double | integer | byte
  deriving DecidableEq, Repr

namespace ColumnType

def all : List ColumnType := [string, long, double, integer, byte]

def name : ColumnType → String
  | string => "string"
  | long => "long"
  | double => "double"
  | integer => "integer"
  | byte => "byte"

/-- Whether values of the type can be added and compared. -/
def isNumeric : ColumnType → Bool
  | long | double | integer => true
  | string | byte => false

/-- Whether the type holds whole numbers. -/
def isWhole : ColumnType → Bool
  | long | integer => true
  | string | double | byte => false

end ColumnType

/-- How the value of an earlier and of a later observation become one value. -/
inductive MergeRule where
  /-- The earlier value stays; strict merging refuses a different later one. -/
  | nonMerge
  /-- The later value replaces the earlier one. -/
  | coverMerge
  | add
  | max
  | min
  deriving DecidableEq, Repr

namespace MergeRule

def name : MergeRule → String
  | nonMerge => "non_merge"
  | coverMerge => "cover_merge"
  | add => "add"
  | max => "max"
  | min => "min"

/-- The name of a rule in messages. -/
def title : MergeRule → String
  | nonMerge => "NonMerge"
  | coverMerge => "CoverMerge"
  | add => "Add"
  | max => "Max"
  | min => "Min"

/-- Whether the rule computes with the two values. -/
def isArithmetic : MergeRule → Bool
  | add | max | min => true
  | nonMerge | coverMerge => false

end MergeRule

structure Column where
  name : String
  type : ColumnType
  rule : MergeRule
  deriving DecidableEq

/-- The value of one column of a record. -/
inductive ColumnValue where
  | string (text : String)
  | long (number : Int64)
  | double (number : Double)
  | integer (number : Int32)
  | byte (bytes : List UInt8)
  deriving DecidableEq

namespace ColumnValue

def type : ColumnValue → ColumnType
  | string _ => .string
  | long _ => .long
  | double _ => .double
  | integer _ => .integer
  | byte _ => .byte

/-- The value that fresh records hold. -/
def blank : ColumnType → ColumnValue
  | .string => string ""
  | .long => long 0
  | .double => double .zero
  | .integer => integer 0
  | .byte => byte []

/-- Whether two values agree. Doubles agree as numbers do, so a NaN does not agree with itself. -/
def agrees : ColumnValue → ColumnValue → Bool
  | double a, double b => a.numericEq b
  | a, b => a = b

/-- How messages write doubles. -/
def messageStyle : Text.DecimalStyle := ⟨.awayFromZero, -4, 15⟩

/-- A value as it stands in messages. -/
def describe : ColumnValue → String
  | string text => "String(" ++ Text.quote text ++ ")"
  | long number => "Long(" ++ toString number.toInt ++ ")"
  | double number => "Double(" ++ Text.decimalText messageStyle number ++ ")"
  | integer number => "Integer(" ++ toString number.toInt ++ ")"
  | byte bytes => "Byte(" ++ Text.bracketed (bytes.map fun b => toString b.toNat) ++ ")"

theorem type_blank (type : ColumnType) : (blank type).type = type := by
  cases type <;> rfl

end ColumnValue

end Telemetry
