import Telemetry.Cluster.Network
import Telemetry.Collector.Archive
import Telemetry.Collector.Service
import Telemetry.Settings.Configuration

/-!
The providers of the three modules of a collector: its settings, its naming service and its
storage. Their hooks act on the site of the collector.
-/

namespace Telemetry.Collector

open Telemetry.Module Storage Cluster

/-- A task that recurs in a collector. -/
inductive Chore where
  | flush (member : String)
  | sweep (member : String)
  deriving DecidableEq

/-- The member that a recurring task belongs to. -/
def Chore.member : Chore → String
  | flush member => member
  | sweep member => member

/-- What runs over the tables once the storage module has started. -/
structure Runtime where
  registration : Registration
  ttlDays : Nat
  flushTimeout : Duration

/-- The storage module of a collector. -/
structure StorageState where
  archive : Archive Backend
  runtime : Option Runtime := none

/-- What the modules of a collector act on. -/
structure Site where
  network : Network
  agenda : Agenda Chore
  storage : Option StorageState := none

abbrev SiteM := ExceptT Error (StateM Site)

namespace SiteM

/-- Changes the network of the site by an action that may fail. -/
def onNetwork (action : Network → Except Error Network) : SiteM Unit := do
  let site ← get
  let network ← action site.network
  set { site with network }

/-- The storage module, which must have been prepared. -/
def storage : SiteM StorageState := do
  match (← get).storage with
  | some storage => return storage
  | none => throw (.serviceNotProvided storageModule "StorageClient")

def setStorage (storage : StorageState) : SiteM Unit :=
  modify fun site => { site with storage := some storage }

end SiteM

/-- A provider that does nothing beyond being registered. -/
def provider (spec : Spec) (prepare : Registry Service → SiteM (Registry Service))
    (start : Manager Service → SiteM Unit := fun _ => pure ())
    (notify : SiteM Unit := pure ())
    : Provider Site Service where
  toSpec := spec
  prepare _ services site := prepare services site
  start manager site := start manager site
  notify _ site := notify site

def configurationProvider (clusterName tableNamespace : String) : Provider Site Service :=
  provider ⟨configurationModule, "default", []⟩ fun services =>
    services.register Interface.configuration.name (.settings clusterName tableNamespace)

/-- The least time between two removals of expired registrations. -/
def leastExpiryPeriod : Duration := 50

/-- The provider of the naming service of a member, over the store of its network. -/
def clusterProvider (member : String) (ttl : Duration) : Provider Site Service :=
  provider ⟨clusterModule, "standalone", []⟩
    (fun services => do
      modify fun site => { site with network := site.network.addService member { ttl } }
      services.registerAll ([.registering, .listening, .naming].map fun (interface : Interface) =>
        (interface.name, .namingService)))
    (fun _ =>
      let period := max (ttl / 3) leastExpiryPeriod
      modify fun site => { site with network := site.network.expireEvery member period })

/-- The services of the tables of a kind. -/
def kindServices (kind : RecordKind) : List (String × Service) :=
  let services (persistence sink : Interface) (service : Service) :=
    [(persistence.name, service), (sink.name, service)]
  match kind.layout with
  | .levels base granularities =>
      let tables := Pyramid.ofList (granularities.map fun granularity =>
        (granularity, granularity.tableName base))
      services (.persistenceLevels kind) (.sinkLevels kind) (.tableLevels tables)
  | .single descriptor =>
      services (.persistence kind) (.sink kind) (.table descriptor.table)

def storageServices : List (String × Service) :=
  RecordKind.all.flatMap kindServices ++
    [(Interface.client.name, .tableStore), (Interface.batches.name, .tableStore),
      (Interface.runtime.name, .storageRuntime)]

def mergeMode (settings : Settings.StorageSettings) : MergeMode :=
  if settings.strictMerge then .strict else .lenient

/-- Opens the store of a storage module and registers its tables. -/
def prepareStorage (member : String) (settings : Settings.StorageSettings)
    (services : Registry Service)
    : SiteM (Registry Service) := do
  modify fun site => { site with network := site.network.addListener member storageModule }
  let services ← services.registerAll storageServices
  let store := Backend.ofKind settings.backend
  SiteM.setStorage { archive := .onStore store (mergeMode settings) }
  return services

/-- Fixes the namespace of the tables, installs them, and makes the instance a member of the
storage module. What was done before a failure stays done.
-/
def startStorage (member instanceId : String) (settings : Settings.StorageSettings)
    (manager : Manager Service)
    : SiteM Unit := do
  let storage ← SiteM.storage
  let space ← lookUp manager configurationModule .configuration fun
    | .settings _ space => some space
    | _ => none
  let (fixed, store) := TableStore.fixNamespace storage.archive.store space
  fixed
  let archive := Archive.install { storage.archive with store }
  SiteM.setStorage { storage with archive }
  let registration : Registration := ⟨storageModule, settings.backend.name, instanceId, 0⟩
  require manager clusterModule .registering
  SiteM.onNetwork (·.register member registration)
  require manager clusterModule .listening
  SiteM.onNetwork (·.attach member member)
  match storage.runtime with
  | some _ => throw (.invariantViolation .startedTwice)
  | none =>
      SiteM.setStorage ⟨archive, some {
        registration
        ttlDays := effectiveTtlDays settings.ttlDays
        flushTimeout := settings.flushTimeoutSecs * 1000 }⟩

/-- Sets up the recurring flushes and sweeps of a member that has started. -/
def notifyStorage (member : String) (settings : Settings.StorageSettings) : SiteM Unit :=
  modify fun site =>
    if (site.storage.bind (·.runtime)).isSome then
      let flushing := site.agenda.arm (.flush member) (settings.flushIntervalSecs * 1000) .restarted
      let agenda := flushing.arm (.sweep member) (settings.ttlCheckIntervalSecs * 1000) .restarted
      { site with agenda }
    else site

def storageProvider (member instanceId : String) (settings : Settings.StorageSettings)
    : Provider Site Service :=
  provider ⟨storageModule, settings.backend.name, [clusterModule, configurationModule]⟩
    (prepareStorage member settings) (startStorage member instanceId settings)
    (notifyStorage member settings)

def providers (configuration : Settings.Configuration) (instanceId member : String)
    : List (Provider Site Service) :=
  [configurationProvider configuration.clusterName configuration.tableNamespace,
    clusterProvider member (configuration.registrationTtlSecs * 1000),
    storageProvider member instanceId configuration.storage]

end Telemetry.Collector
