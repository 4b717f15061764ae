import Telemetry.Document.Fields
import Telemetry.Settings.SocketAddress
import Telemetry.Storage.Backend
import Telemetry.Storage.Sweep

/-!
The configuration of a collector: as it is written, with optional parts, and as it is used, with
every part checked and filled in. Checks run in a fixed order and the first that fails is reported.
-/

namespace Telemetry.Settings

structure ClusterSection where
  provider : String := "standalone"
  registrationTtlSecs : Nat := 30
  deriving DecidableEq

/-- The storage section as written. The path is that of the database file. -/
structure StorageSection where
  provider : String
  ttlDays : Option Nat := none
  ttlCheckIntervalSecs : Option Nat := none
  flushIntervalSecs : Option Nat := none
  flushTimeoutSecs : Option Nat := none
  strictMerge : Bool := false
  databasePath : Option String := none
  deriving DecidableEq

/-- A configuration as written. -/
structure Written where
  clusterName : String
  tableNamespace : String := ""
  cluster : ClusterSection := {}
  storage : StorageSection
  prometheus : Option String := none
  deriving DecidableEq

namespace ClusterSection

def decode? (value : Value) : Option ClusterSection := do
  match ← value.slots? ["provider", "registration_ttl_secs"] with
  | [provider, ttl] =>
      some {
        provider := ← provider.withDefault? "standalone" Value.text?
        registrationTtlSecs := ← ttl.withDefault? 30 (Value.natOfBits? 64) }
  | _ => none

end ClusterSection

namespace StorageSection

/-- Reads the section of the database, of which only the path is used. -/
def databasePath? (value : Value) : Option String := do
  match ← value.requiredFields? ["path"] with
  | [path] => path.text?
  | _ => none

def fieldNames : List String :=
  ["provider", "ttl_days", "ttl_check_interval_secs", "flush_interval_secs", "flush_timeout_secs",
    "strict_merge", "redb"]

def decode? (value : Value) : Option StorageSection := do
  match ← value.slots? fieldNames with
  | [provider, ttlDays, ttlCheck, flushInterval, flushTimeout, strict, database] =>
      some {
        provider := ← (← provider.required).text?
        ttlDays := ← ttlDays.optional? (Value.natOfBits? 32)
        ttlCheckIntervalSecs := ← ttlCheck.optional? (Value.natOfBits? 64)
        flushIntervalSecs := ← flushInterval.optional? (Value.natOfBits? 64)
        flushTimeoutSecs := ← flushTimeout.optional? (Value.natOfBits? 64)
        strictMerge := ← strict.withDefault? false Value.bool?
        databasePath := ← database.optional? databasePath? }
  | _ => none

end StorageSection

namespace Written

def fieldNames : List String :=
  ["cluster_name", "namespace", "cluster", "storage", "prometheus"]

/-- Reads a value that may be null. -/
def nullable? {α : Type} (read? : Value → Option α) : Value → Option (Option α)
  | .null => some none
  | value => (read? value).map some

def decode? (value : Value) : Option Written := do
  match ← value.slots? fieldNames with
  | [clusterName, space, cluster, storage, prometheus] =>
      some {
        clusterName := ← (← clusterName.required).text?
        tableNamespace := ← space.withDefault? "" Value.text?
        cluster := ← cluster.withDefault? {} ClusterSection.decode?
        storage := ← StorageSection.decode? (← storage.required)
        prometheus := ← prometheus.withDefault? none (nullable? Value.text?) }
  | _ => none

end Written

inductive ConfigurationError where
  | unknownClusterProvider (provider : String)
  | registrationTtlZero
  | unknownStorageProvider (provider : String)
  | databasePathMissing
  | storagePeriodZero (key : String)
  | badPrometheusAddress (text : String)
  | badExporterAddress (text : String)
  deriving DecidableEq

namespace ConfigurationError

def message : ConfigurationError → String
  | unknownClusterProvider provider => "unknown cluster provider: " ++ provider
  | registrationTtlZero => "cluster.registration_ttl_secs must be positive"
  | unknownStorageProvider provider => "unknown storage provider: " ++ provider
  | databasePathMissing => "storage provider redb requires storage.redb.path"
  | storagePeriodZero key => "storage." ++ key ++ " must be positive"
  | badPrometheusAddress text => "Failed to parse prometheus address: " ++ text
  | badExporterAddress text => "Failed to parse into Socket address: " ++ text

end ConfigurationError

/-- The storage settings in use. Only a database has a path. -/
structure StorageSettings where
  backend : Storage.BackendKind
  databasePath : Option String := none
  ttlDays : Nat := Storage.defaultTtlDays
  ttlCheckIntervalSecs : Nat := 86400
  flushIntervalSecs : Nat := 1
  flushTimeoutSecs : Nat := 30
  strictMerge : Bool := false
  deriving DecidableEq

/-- A configuration in use. -/
structure Configuration where
  clusterName : String
  tableNamespace : String
  registrationTtlSecs : Nat
  storage : StorageSettings
  prometheus : Option SocketAddress
  deriving DecidableEq

namespace Written

/-- The backend that the storage section chooses, with the path of a database. -/
def backend (storage : StorageSection)
    : Except ConfigurationError (Storage.BackendKind × Option String) :=
  match storage.provider with
  | "memory" => .ok (.memory, none)
  | "redb" =>
      match storage.databasePath with
      | some path => .ok (.database, some path)
      | none => .error .databasePathMissing
  | other => .error (.unknownStorageProvider other)

/-- A number of seconds that must not be zero. -/
def period (given : Option Nat) (fallback : Nat) (key : String)
    : Except ConfigurationError Nat :=
  match given.getD fallback with
  | 0 => .error (.storagePeriodZero key)
  | secs => .ok secs

/-- Reads the address of the exporter, if there is one. -/
def exporter (prometheus : Option String) : Except ConfigurationError (Option SocketAddress) :=
  match prometheus with
  | none => .ok none
  | some text =>
      match SocketAddress.parse? text with
      | some address => .ok (some address)
      | none => .error (.badPrometheusAddress text)

/-- Checks a configuration and fills in what it leaves out. -/
def check (written : Written) : Except ConfigurationError Configuration := do
  if written.cluster.provider ≠ "standalone" then
    throw (.unknownClusterProvider written.cluster.provider)
  if written.cluster.registrationTtlSecs = 0 then throw .registrationTtlZero
  let storage := written.storage
  let (kind, path) ← backend storage
  let ttlCheck ← period storage.ttlCheckIntervalSecs 86400 "ttl_check_interval_secs"
  let flushInterval ← period storage.flushIntervalSecs 1 "flush_interval_secs"
  let flushTimeout ← period storage.flushTimeoutSecs 30 "flush_timeout_secs"
  let prometheus ← exporter written.prometheus
  return {
    clusterName := written.clusterName
    tableNamespace := written.tableNamespace
    registrationTtlSecs := written.cluster.registrationTtlSecs
    storage := {
      backend := kind
      databasePath := path
      ttlDays := Storage.effectiveTtlDays (storage.ttlDays.getD 0)
      ttlCheckIntervalSecs := ttlCheck
      flushIntervalSecs := flushInterval
      flushTimeoutSecs := flushTimeout
      strictMerge := storage.strictMerge }
    prometheus := prometheus }

end Written

end Telemetry.Settings
