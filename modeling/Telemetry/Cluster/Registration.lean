import Telemetry.Document.Fields
import Telemetry.Document.Text

/-!
Registrations by which the instances of a module announce themselves, and their order: by
instance and sequence first, so the entries of one member stand together.
-/

namespace Telemetry.Cluster

/-- An announced instance of a module. -/
structure Registration where
  module : String
  provider : String
  instanceId : String
  sequence : Nat
  deriving DecidableEq

namespace Registration

/-- The name of a registration within its module. -/
def key (registration : Registration) : String :=
  registration.instanceId ++ "_" ++ toString registration.sequence

/-- Whether two registrations announce the same instance. -/
def sameMember (a b : Registration) : Bool :=
  a.instanceId = b.instanceId && a.sequence = b.sequence

def compare (a b : Registration) : Ordering :=
  (Ord.compare a.instanceId b.instanceId).then <|
  (Ord.compare a.sequence b.sequence).then <|
  (Ord.compare a.module b.module).then <|
  Ord.compare a.provider b.provider

/-- Whether a registration comes before another one or is equal to it. -/
def le (a b : Registration) : Bool :=
  (compare a b).isLE

def fieldNames : List String := ["module_name", "provider_name", "instance_id", "sequence"]

def encode (registration : Registration) : Value :=
  .object [("module_name", .text registration.module),
    ("provider_name", .text registration.provider),
    ("instance_id", .text registration.instanceId),
    ("sequence", .int registration.sequence)]

def decode? (value : Value) : Option Registration := do
  match ← value.requiredFields? fieldNames with
  | [module, provider, instanceId, sequence] =>
      some ⟨← module.text?, ← provider.text?, ← instanceId.text?, ← sequence.natOfBits? 32⟩
  | _ => none

/-- Reads a registration from its JSON text. -/
def read? (json : Json) : Option Registration :=
  json.skimmed?.bind decode?

end Registration

def inOrder (registrations : List Registration) : List Registration :=
  registrations.mergeSort Registration.le

end Telemetry.Cluster
