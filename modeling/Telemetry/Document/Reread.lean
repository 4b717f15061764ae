import Telemetry.Document.Text

/-!
Values that are kept as JSON texts, as they are read back. The reader takes the digits of a decimal
for a whole number and scales it by a power of ten, and both steps round, so that a double can come
back as one of its neighbours. All other values come back unchanged.
-/

namespace Telemetry

namespace Value

/-- The value that the text of a double is read as. JSON texts hold real numbers alone, and the text
of such a number can always be read.
-/
def rereadDouble (number : Double) : Value :=
  (Document.Number.read? (Text.decimalText decimalStyle number).toList).getD (.float number)

mutual

/-- The greatest number of containers within each other, the value itself included. -/
def nesting : Value → Nat
  | .list items => nestingAll items + 1
  | .object fields => nestingFields fields + 1
  | .null | .bool _ | .int _ | .float _ | .text _ => 0

def nestingAll : List Value → Nat
  | [] => 0
  | value :: rest => max (nesting value) (nestingAll rest)

def nestingFields : List (String × Value) → Nat
  | [] => 0
  | (_, value) :: rest => max (nesting value) (nestingFields rest)

end

mutual

/-- The value that the text of a value is read as. -/
def reread : Value → Value
  | .float number => rereadDouble number
  | .list items => .list (rereadAll items)
  | .object fields => .object (rereadFields fields)
  | .null => .null
  | .bool truth => .bool truth
  | .int number => .int number
  | .text chars => .text chars

def rereadAll : List Value → List Value
  | [] => []
  | value :: rest => reread value :: rereadAll rest

def rereadFields : List (String × Value) → List (String × Value)
  | [] => []
  | (name, value) :: rest => (name, reread value) :: rereadFields rest

end

end Value

namespace Document

/-- The document that the text of a document is read as, if it is read at all. -/
def reread (document : Document) : Document :=
  document.mapValues fun _ value => value.reread

/-- The document that the text of a document is read as. Every document can be written, but the
reader gives up on more containers within each other than it has room for.
-/
def reread? (document : Document) : Option Document :=
  if (Value.ofDocument document).nesting ≤ Frame.depthLimit then some document.reread else none

end Document

end Telemetry
