import Telemetry.KeyMap
import Telemetry.Text.Decimal
import Telemetry.Text.Hex

/-!
Plain data values and the documents that tables store. A document lists its columns once each in
ascending order; the fields of a value that was read from a text may repeat.
-/

namespace Telemetry

/-- A plain data value. -/
inductive Value where
  | null
  | bool (truth : Bool)
  | int (number : Int)
  | float (number : Double)
  | text (text : String)
  | list (items : List Value)
  | object (fields : List (String × Value))
  deriving Inhabited

/-- A stored row: values by column name. -/
abbrev Document := KeyMap Value

namespace Value

def ofDocument (document : Document) : Value :=
  .object document.entries

/-- The integer of a value that lies in the range of a signed 64-bit word. -/
def signed64? : Value → Option Int
  | .int number => if -2 ^ 63 ≤ number ∧ number < 2 ^ 63 then some number else none
  | _ => none

/-- A control character inside a JSON text. -/
def escapeControl (c : Char) : List Char :=
  '\\' :: 'u' :: Text.hexText 4 c.toNat

/-- A character inside a JSON text. -/
def escapeChar (c : Char) : List Char :=
  match c with
  | '"' => ['\\', '"']
  | '\\' => ['\\', '\\']
  | '\n' => ['\\', 'n']
  | '\r' => ['\\', 'r']
  | '\t' => ['\\', 't']
  | '\x08' => ['\\', 'b']
  | '\x0c' => ['\\', 'f']
  | c => if c.toNat < 32 then escapeControl c else [c]

def renderText (text : String) : String :=
  String.ofList ('"' :: (text.toList.flatMap escapeChar ++ ['"']))

/-- How JSON texts write doubles. -/
def decimalStyle : Text.DecimalStyle := ⟨.toEven, -5, 15⟩

mutual

/-- The JSON text of a value, without blanks. -/
def render : Value → String
  | .null => "null"
  | .bool truth => if truth then "true" else "false"
  | .int number => toString number
  | .float number => Text.decimalText decimalStyle number
  | .text chars => renderText chars
  | .list items => "[" ++ ",".intercalate (renderAll items) ++ "]"
  | .object fields => "\x7b" ++ ",".intercalate (renderFields fields) ++ "\x7d"

/-- The JSON texts of the items of a list. -/
def renderAll : List Value → List String
  | [] => []
  | value :: rest => render value :: renderAll rest

/-- The JSON texts of the fields of an object. -/
def renderFields : List (String × Value) → List String
  | [] => []
  | (name, value) :: rest => (renderText name ++ ":" ++ render value) :: renderFields rest

end

end Value

end Telemetry
