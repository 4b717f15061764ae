import Telemetry.Collector.Provider
import Telemetry.Collector.Replay
import Telemetry.Settings.Plain

/-!
Collectors that run side by side. Those that share a network see each other as members of the
storage module, and the elected one of them sweeps; every collector has tables of its own.
-/

namespace Telemetry.Collector

open Telemetry.Module Storage Cluster

/-- A running collector. -/
structure Instance where
  running : Running Site Service
  /-- The name of the collector on its network and in the agenda. -/
  member : String
  network : String
  storage : Option StorageState

/-- Running collectors by name, with the networks that they are on. -/
structure Deployment where
  networks : KeyMap Network := ∅
  collectors : KeyMap Instance := ∅
  agenda : Agenda Chore := {}
  metrics : Metrics := {}
  /-- The number of collectors that were ever started. -/
  started : Nat := 0

/-- The network that collectors share unless they have one of their own. -/
def sharedNetwork : String := "shared"

/-- What a collector reports of its settings. -/
structure SettingsReport where
  clusterName : String
  tableNamespace : String
  backend : String
  tableQualifier : Option String
  ttlDays : Nat

def SettingsReport.encode (report : SettingsReport) : Value :=
  .object [("cluster_name", .text report.clusterName), ("namespace", .text report.tableNamespace),
    ("backend", .text report.backend), ("prefix", .ofText? report.tableQualifier),
    ("ttl_days", .int report.ttlDays)]

namespace Instance

/-- Looks up what runs over the tables of a collector. -/
def runtime (collector : Instance) : Except Error (StorageState × Runtime) := do
  let manager := collector.running.manager
  require manager storageModule .runtime
  match collector.storage with
  | some storage@⟨_, some runtime⟩ => return (storage, runtime)
  | _ => throw (.serviceNotProvided storageModule Interface.runtime.name)

/-- Looks up the storage module of a collector by one of its interfaces. -/
def storageBy (collector : Instance) (interface : Interface) : Except Error StorageState := do
  require collector.running.manager storageModule interface
  match collector.storage with
  | some storage => return storage
  | none => throw (.serviceNotProvided storageModule interface.name)

def settings (collector : Instance) : Except Error SettingsReport := do
  let manager := collector.running.manager
  let (clusterName, tableNamespace) ← lookUp manager configurationModule .configuration fun
    | .settings clusterName space => some (clusterName, space)
    | _ => none
  let storage ← collector.storageBy .client
  let (_, runtime) ← collector.runtime
  let store := storage.archive.store
  return {
    clusterName
    tableNamespace
    backend := TableStore.backend store
    tableQualifier := (TableStore.tableNamespace store).qualifier?
    ttlDays := runtime.ttlDays }

def fetch (collector : Instance) (kind : RecordKind) (granularity : Option Granularity)
    (id : String)
    : Except Error (String × Option kind.Carrier) := do
  let table ← persistenceTable collector.running.manager kind granularity
  match collector.storage with
  | none => throw (.serviceNotProvided storageModule table)
  | some storage => return (table, ← storage.archive.fetch kind table id)

def row (collector : Instance) (table id : String) : Except Error (Option Document) := do
  (← collector.storageBy .client).archive.row? table id

/-- The modules of a collector in order, each with its provider and how far it has come. -/
def modules (collector : Instance) : List (LoadedModule Service) :=
  collector.running.manager.modules

end Instance

namespace Deployment

/-- A network, which is empty before anyone uses it. -/
def network (deployment : Deployment) (name : String) : Network :=
  (deployment.networks.get? name).getD {}

def site (deployment : Deployment) (collector : Instance) : Site where
  network := deployment.network collector.network
  agenda := deployment.agenda
  storage := collector.storage

/-- The deployment with the site of a collector as it has become. -/
def withSite (deployment : Deployment) (name : String) (collector : Instance) (site : Site)
    : Deployment :=
  { deployment with
    networks := deployment.networks.insert collector.network site.network
    agenda := site.agenda
    collectors := deployment.collectors.insert name { collector with storage := site.storage } }

def act {α : Type} (deployment : Deployment) (name : String) (collector : Instance)
    (action : SiteM α)
    : Except Error α × Deployment :=
  let (result, site) := action (deployment.site collector)
  (result, deployment.withSite name collector site)

/-- A network without what one of its members keeps there, but with its registrations. -/
def leave (network : Network) (member : String) : Network :=
  ((network.dropService member).dropListener member).stopExpiring member

/-- Stops a collector. A network of its own goes with it. -/
def stop (deployment : Deployment) (name : String) : Deployment :=
  match deployment.collectors.get? name with
  | none => deployment
  | some collector =>
      let left := leave (deployment.network collector.network) collector.member
      let networks := deployment.networks.insert collector.network left
      { deployment with
        networks := if collector.network = sharedNetwork then networks
          else networks.erase collector.network
        collectors := deployment.collectors.erase name
        agenda := deployment.agenda.cancel (·.member = collector.member) }

/-- Starts a collector with providers that are made for its member, in place of one of that name.
A collector that does not come up leaves nothing behind but its registrations.
-/
def start (deployment : Deployment) (name : String) (ownNetwork : Bool)
    (providers : String → List (Provider Site Service))
    : Except Error Unit × Deployment :=
  let member := toString deployment.started
  let networkName := if ownNetwork then member else sharedNetwork
  let deployment := { deployment with started := deployment.started + 1 }
  let site : Site := ⟨deployment.network networkName, deployment.agenda, none⟩
  match bootstrap (providers member) site with
  | (.ok running, site) =>
      let networks := deployment.networks.insert networkName site.network
      let deployment := { deployment with networks, agenda := site.agenda }.stop name
      let collector : Instance := ⟨running, member, networkName, site.storage⟩
      (.ok (), { deployment with collectors := deployment.collectors.insert name collector })
  | (.error error, site) =>
      (.error error, { deployment with
        networks := deployment.networks.insert networkName (leave site.network member) })

/-- The deployment after the tables of a collector have changed. -/
def withArchive (deployment : Deployment) (name : String) (collector : Instance)
    (archive : Archive Backend) (measurements : List Measurement)
    : Deployment :=
  let storage := collector.storage.map ({ · with archive })
  { deployment with
    collectors := deployment.collectors.insert name { collector with storage }
    metrics := deployment.metrics.recordAll measurements }

/-- Stages a stream record in the table that takes it. -/
def dispatch (deployment : Deployment) (name : String) (collector : Instance)
    (record : StreamRecord)
    : Except Error Deployment := do
  let table ← sinkTable collector.running.manager record.kind record.granularity
  match collector.storage with
  | none => throw (.serviceNotProvided storageModule table)
  | some storage =>
      let (measurements, archive) ← storage.archive.ingest record.kind table record.record
      return deployment.withArchive name collector archive measurements

/-- Stages a stream record at a collector by name, and leaves everything as it is on failure. -/
def accept (name : String) (record : StreamRecord) (deployment : Deployment)
    : Except Error Unit × Deployment :=
  match deployment.collectors.get? name with
  | none => (.error (.serviceNotProvided storageModule name), deployment)
  | some collector =>
      match deployment.dispatch name collector record with
      | .ok deployment => (.ok (), deployment)
      | .error error => (.error error, deployment)

def replay (deployment : Deployment) (name : String) (content : List UInt8)
    : Option Nat × Deployment :=
  Replay.run (accept name) content deployment

/-- Runs a cycle of a collector, whose flush has a deadline by the time that it may take. -/
def cycle (deployment : Deployment) (name : String) (collector : Instance)
    (deadline : Duration → Deadline := Deadline.undelayed)
    : Except Error Outcome × Deployment :=
  match collector.runtime with
  | .error error => (.error error, deployment)
  | .ok (storage, runtime) =>
      let cycle := storage.archive.cycle runtime.flushTimeout (deadline runtime.flushTimeout)
      (cycle.result, deployment.withArchive name collector cycle.archive cycle.measurements)

/-- The view that a collector has of the members of the storage module. -/
def view (deployment : Deployment) (collector : Instance) : View :=
  ((deployment.network collector.network).listeners.get? collector.member).getD
    { module := storageModule }

def sweep (deployment : Deployment) (name : String) (collector : Instance) (now : Instant)
    : Except Error SweepReport × Deployment :=
  match collector.runtime with
  | .error error => (.error error, deployment)
  | .ok (storage, runtime) =>
      let swept := storage.archive.sweep (deployment.view collector) runtime.registration
        runtime.ttlDays now
      (.ok swept.report,
        deployment.withArchive name collector swept.archive swept.measurements)

/-- The members that a collector sees, and its own registration. -/
def membership (deployment : Deployment) (collector : Instance)
    : Except Error (List Registration × Registration) := do
  let (_, runtime) ← collector.runtime
  return ((deployment.view collector).peers, runtime.registration)

/-- Deregisters a collector through its own naming service. -/
def deregister (deployment : Deployment) (collector : Instance)
    : Except Error Unit × Deployment :=
  let found := do
    let (_, runtime) ← collector.runtime
    require collector.running.manager clusterModule .naming
    return runtime.registration
  match found with
  | .error error => (.error error, deployment)
  | .ok registration =>
      let network := deployment.network collector.network
      let (result, network) := network.deregister collector.member registration
      (result, { deployment with
        networks := deployment.networks.insert collector.network network })

/-- Executes a batch on the table store of a collector. -/
def execute (deployment : Deployment) (name : String) (collector : Instance)
    (operations : List Operation)
    : Except Error Outcome × Deployment :=
  match collector.storageBy .batches with
  | .error error => (.error error, deployment)
  | .ok storage =>
      let (result, archive) := storage.archive.execute operations
      (result, deployment.withArchive name collector archive [])

/-- Starts the storage module of a collector once more, if it has one. -/
def restart (deployment : Deployment) (name : String) (collector : Instance)
    : Option (Except Error Unit × Deployment) :=
  (collector.running.providers.find? (·.module = storageModule)).map fun provider =>
    deployment.act name collector (provider.start collector.running.manager)

/-- Runs a recurring task at a reading of the calendar. -/
def run (now : Instant) (deadline : Duration → Deadline) (deployment : Deployment) (chore : Chore)
    : Deployment :=
  match deployment.collectors.entries.find? (·.2.member = chore.member) with
  | none => deployment
  | some (name, collector) =>
      match chore with
      | .flush _ => (deployment.cycle name collector deadline).2
      | .sweep _ => (deployment.sweep name collector now).2

/-- Moves the clock of the recurring tasks forward and runs those that are due. -/
def advance (deployment : Deployment) (elapsed : Duration) (now : Instant)
    (deadline : Duration → Deadline := Deadline.undelayed)
    : Deployment :=
  let (chores, agenda) := deployment.agenda.advance elapsed
  let networks := deployment.networks.mapValues fun _ network => network.advance elapsed
  chores.foldl (run now deadline) { deployment with networks, agenda }

/-- Lets the listening tasks run until all of them wait. -/
def settle (deployment : Deployment) : Deployment :=
  { deployment with networks := deployment.networks.mapValues fun _ network => network.settle }

end Deployment

end Telemetry.Collector
