import Telemetry.Collector.RecordKind
import Telemetry.Module.Lifecycle
import Telemetry.Storage.Pyramid

/-!
The services that the modules of a collector provide for each other, and the interfaces by which
they are looked up. Interfaces have full names, which messages show.
-/

namespace Telemetry.Collector

open Storage Telemetry.Module

/-- The module of the settings that other modules read. -/
def configurationModule : String := "configuration"

/-- The module of the naming service. -/
def clusterModule : String := "cluster"

/-- The module of the tables and what runs over them. -/
def storageModule : String := "storage"

/-- An interface of a service. -/
inductive Interface where
  | configuration
  | naming
  | registering
  | listening
  /-- Reading the rows of a kind. -/
  | persistence (kind : RecordKind)
  /-- Taking new records of a kind. -/
  | sink (kind : RecordKind)
  | persistenceLevels (kind : RecordKind)
  | sinkLevels (kind : RecordKind)
  | client
  | batches
  | runtime
  deriving DecidableEq

namespace Interface

/-- The full name of a kind of records. -/
def recordName : RecordKind → String
  | .applicationAlarm => "collector_storage::table::alarm::ApplicationAlarmList"
  | .instanceReferenceAlarm => "collector_storage::table::alarm::InstanceReferenceAlarmList"
  | .serviceReferenceAlarm => "collector_storage::table::alarm::ServiceReferenceAlarmList"
  | .instanceMapping => "collector_storage::table::instance::InstanceMapping"
  | .cpuMetric => "collector_storage::table::cpu::CpuMetric"
  | .instanceHeartBeat => "collector_storage::table::instance::InstanceHeartBeat"

/-- The full name of reading the rows of a kind. -/
def persistenceName (kind : RecordKind) : String :=
  "dyn collector_core::storage::PersistenceDao<" ++ recordName kind ++ ">"

/-- The full name of taking new records of a kind. -/
def sinkName (kind : RecordKind) : String :=
  "dyn collector_storage::worker::RecordSink<" ++ recordName kind ++ ">"

/-- The full name of services of an interface at several granularities. -/
def levelsName (level : String) : String :=
  "collector_core::storage::TimePyramid<" ++ level ++ ">"

/-- The full name of an interface. -/
def name : Interface → String
  | configuration => "dyn collector_core::module::configuration::CollectorConfig"
  | naming => "collector_core::cluster::metadata_naming::MetadataClusterService"
  | registering => "dyn collector_core::cluster::ModuleRegisterService"
  | listening => "dyn collector_core::cluster::ModuleListenerService"
  | persistence kind => persistenceName kind
  | sink kind => sinkName kind
  | persistenceLevels kind => levelsName (persistenceName kind)
  | sinkLevels kind => levelsName (sinkName kind)
  | client => "dyn collector_core::storage::StorageClient"
  | batches => "dyn collector_core::storage::BatchDao"
  | runtime => "collector_storage::provider::StorageRuntime"

end Interface

/-- A service. Tables are named, and stores and naming services belong to the collector. -/
inductive Service where
  | settings (clusterName tableNamespace : String)
  | namingService
  | table (name : String)
  | tableLevels (tables : Pyramid String)
  | tableStore
  | storageRuntime

/-- Looks up a service of a module and takes it apart. A service of another form does not count as
one of the interface.
-/
def lookUp {α : Type} (manager : Manager Service) (module : String) (interface : Interface)
    (take? : Service → Option α)
    : Except Error α := do
  match take? (← manager.service module interface.name) with
  | some found => return found
  | none => throw (.serviceNotProvided module interface.name)

/-- The table of a kind that has a single one, as an interface of it names it. -/
def singleTable (manager : Manager Service) (interface : Interface) : Except Error String :=
  lookUp manager storageModule interface fun
    | .table name => some name
    | _ => none

/-- The table of a kind at a granularity. The level is an interface of its own. -/
def levelTable (manager : Manager Service) (levels level : Interface) (granularity : Granularity)
    : Except Error String := do
  let tables ← lookUp manager storageModule levels fun
    | .tableLevels tables => some tables
    | _ => none
  tables.level level.name granularity

/-- The table from which records of a kind are read. -/
def persistenceTable (manager : Manager Service) (kind : RecordKind)
    : Option Granularity → Except Error String
  | none => singleTable manager (.persistence kind)
  | some granularity =>
      levelTable manager (.persistenceLevels kind) (.persistence kind) granularity

/-- The table that takes new records of a kind. -/
def sinkTable (manager : Manager Service) (kind : RecordKind)
    : Option Granularity → Except Error String
  | none => singleTable manager (.sink kind)
  | some granularity => levelTable manager (.sinkLevels kind) (.sink kind) granularity

/-- Looks up a service of which nothing but its presence matters. -/
def require (manager : Manager Service) (module : String) (interface : Interface)
    : Except Error Unit :=
  lookUp manager module interface fun _ => some ()

end Telemetry.Collector
