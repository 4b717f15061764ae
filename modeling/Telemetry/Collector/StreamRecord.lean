import Telemetry.Collector.RecordKind

/-!
Stream records: a record of some kind, with the granularity of its table if its kind is kept at
several ones. They are written as objects with the kind under `entity`, or as lists that start
with the kind.
-/

namespace Telemetry.Collector

/-- A record on its way into a table. -/
structure StreamRecord where
  kind : RecordKind
  granularity : Option Granularity
  record : kind.Carrier

namespace StreamRecord

/-- The fields of an object but those of one name, which occurs once, and the value of that. -/
def takeField? (name : String) (fields : List (String × Value))
    : Option (Value × List (String × Value)) :=
  match fields.filter (·.1 = name) with
  | [(_, value)] => some (value, fields.filter (·.1 ≠ name))
  | _ => none

/-- Takes the kind off a written stream record. -/
def untag? : Value → Option (String × Value)
  | .object fields => do
      let (tag, rest) ← takeField? "entity" fields
      some (← tag.text?, .object rest)
  | .list (tag :: rest) => do some (← tag.text?, .list rest)
  | _ => none

/-- Reads a granularity inside a stream record. -/
def granularity? (value : Value) : Option Granularity :=
  value.taggedSymbol?.bind Granularity.ofName?

def decode? (value : Value) : Option StreamRecord := do
  let (name, content) ← untag? value
  let kind ← RecordKind.ofName? name
  match kind.layout with
  | .levels _ _ =>
      match ← content.requiredFields? ["granularity", "record"] with
      | [granularity, record] =>
          some ⟨kind, some (← granularity? granularity), ← Record.decode? record⟩
      | _ => none
  | .single _ =>
      match ← content.requiredFields? ["record"] with
      | [record] => some ⟨kind, none, ← Record.decode? record⟩
      | _ => none

end StreamRecord

end Telemetry.Collector
