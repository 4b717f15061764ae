import Telemetry.Document.Value

/-!
Taking plain values apart. A structure is written as an object with its fields by name, or as a
list with its fields by position; unknown names are skipped and known ones may occur once.
-/

namespace Telemetry

/-- What a value holds at the place of a field. -/
inductive Slot where
  | given (value : Value)
  /-- The object has no field of that name. -/
  | absent
  /-- The list ends before that position. -/
  | cutOff

namespace Slot

/-- The value of a field that must be given. -/
def required : Slot → Option Value
  | given value => some value
  | absent | cutOff => none

/-- Reads a field that an object may leave out, or either form may set to null. -/
def optional? {α : Type} (read? : Value → Option α) : Slot → Option (Option α)
  | given .null => some none
  | given value => (read? value).map some
  | absent => some none
  | cutOff => none

/-- Reads a field that both forms may leave out. -/
def withDefault? {α : Type} (fallback : α) (read? : Value → Option α) : Slot → Option α
  | given value => read? value
  | absent | cutOff => some fallback

end Slot

namespace Value

/-- What a value holds for each of the named fields. -/
def slots? (names : List String) : Value → Option (List Slot)
  | .object fields =>
      if (fields.filter fun field => names.contains field.1).map (·.1) |>.Nodup then
        some (names.map fun name =>
          match fields.lookup name with
          | some value => .given value
          | none => .absent)
      else none
  | .list items =>
      if items.length ≤ names.length then
        some (items.map .given ++ List.replicate (names.length - items.length) .cutOff)
      else none
  | _ => none

/-- The values of the named fields, all of which must be given. -/
def requiredFields? (names : List String) (value : Value) : Option (List Value) := do
  (← value.slots? names).mapM Slot.required

def text? : Value → Option String
  | .text chars => some chars
  | _ => none

def bool? : Value → Option Bool
  | .bool truth => some truth
  | _ => none

/-- The integer of a value within bounds, both included. -/
def intWithin? (least greatest : Int) : Value → Option Int
  | .int number => if least ≤ number ∧ number ≤ greatest then some number else none
  | _ => none

/-- A natural number of at most so many bits. -/
def natOfBits? (bits : Nat) (value : Value) : Option Nat :=
  (value.intWithin? 0 (2 ^ bits - 1)).map Int.toNat

/-- The symbol that a value names: a text, or an object with that one name and no content. -/
def symbol? : Value → Option String
  | .text chars => some chars
  | .object [(name, .null)] => some name
  | _ => none

/-- The symbol that a value names inside a tagged structure, where no content may also be written
as an empty object.
-/
def taggedSymbol? : Value → Option String
  | .object [(name, .object [])] => some name
  | value => value.symbol?

end Value

end Telemetry
