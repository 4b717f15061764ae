import Telemetry.Cluster.Registration
import Telemetry.Metadata.Store

/-!
The naming service: it keeps registrations in the metadata store, under one path for each member
of a module, and reads the members of a module back from there.
-/

namespace Telemetry.Cluster

/-- The text that the paths of the registrations of a module start with. -/
def modulePath (module : String) : String :=
  "/cluster/" ++ module ++ "/"

def Registration.path (registration : Registration) : String :=
  modulePath registration.module ++ registration.key

/-- The registrations that the store holds for a module, in order. Texts that are no registrations
are skipped.
-/
def storedPeers (store : Metadata.Store) (module : String)
    : Except MetadataError (List Registration) := do
  let entries ← store.bulk (modulePath module)
  return inOrder (entries.filterMap fun entry => Registration.read? entry.2)

inductive StoreCall where
  | put | delete | bulk | watch
  deriving DecidableEq

namespace StoreCall

def name : StoreCall → String
  | put => "put"
  | delete => "delete"
  | bulk => "bulk"
  | watch => "watch"

def all : List StoreCall := [put, delete, bulk, watch]

/-- The error of a call that the store does not carry out. -/
def refusal : StoreCall → MetadataError
  | watch => .channelClosed
  | call => .refused call.name

end StoreCall

/-- A naming service. It renews its registrations until it deregisters them. -/
structure NamingService where
  /-- How long a registration lasts without being renewed. -/
  ttl : Duration
  /-- The calls that the store does not carry out for this service. -/
  refused : List StoreCall := []
  /-- The registrations that are renewed, by path. -/
  renewed : KeyMap Registration := ∅

namespace NamingService

/-- The time between two renewals of a registration. -/
def renewalPeriod (service : NamingService) : Duration :=
  service.ttl / 3

/-- Makes a call of the store, unless the store refuses it. -/
def call {α : Type} (service : NamingService) (call : StoreCall) (run : Except MetadataError α)
    : Except Error α :=
  (if service.refused.contains call then .error call.refusal else run).mapError .metadata

/-- Stores a registration for as long as registrations last. -/
def store (service : NamingService) (now : Metadata.Time) (registration : Registration)
    (store : Metadata.Store)
    : Except Error Metadata.Store :=
  service.call .put (store.putFor now service.ttl registration.path registration.encode)

/-- Stores a registration and renews it from now on. -/
def register (service : NamingService) (now : Metadata.Time) (registration : Registration)
    (store : Metadata.Store)
    : Except Error (NamingService × Metadata.Store) := do
  let store ← service.store now registration store
  return ({ service with
    renewed := service.renewed.insert registration.path registration }, store)

/-- The service when it no longer renews a registration. -/
def release (service : NamingService) (registration : Registration) : NamingService :=
  { service with renewed := service.renewed.erase registration.path }

/-- Removes a registration from the store. -/
def remove (service : NamingService) (registration : Registration) (store : Metadata.Store)
    : Except Error Metadata.Store :=
  service.call .delete (store.delete registration.path)

/-- The members of a module. -/
def peers (service : NamingService) (module : String) (store : Metadata.Store)
    : Except Error (List Registration) :=
  service.call .bulk (storedPeers store module)

def describe (service : NamingService) : String :=
  "MetadataClusterService \x7b ttl: " ++ Duration.text service.ttl ++ ", registrations: "
    ++ toString service.renewed.size ++ " \x7d"

end NamingService

end Telemetry.Cluster
