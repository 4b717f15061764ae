import Telemetry.Proofs.Collector.RowLifetimes
import Telemetry.Proofs.Collector.RunningCollectors

/-! Where the records of a kind go. The services of the storage module name one table for every
granularity that a kind is kept at, no table twice, and whatever is built for the table reads,
stages, drains and sweeps that table alone.
-/

namespace Telemetry.Module

variable {σ S : Type}

/-- Services of interfaces that differ and have none yet can all be registered, by induction over
the services.
-/
theorem Registry.registerAll_eq_insertAll {registry : Registry S} {services : List (String × S)}
    (distinct : (services.map (·.1)).Nodup)
    (free : ∀ service ∈ services, registry.services.get? service.1 = none)
    : registry.registerAll services
      = .ok { registry with services := registry.services.insertAll services } := by
  induction services generalizing registry with
  | nil => rfl
  | cons first rest ih =>
      obtain ⟨fresh, distinct⟩ := List.nodup_cons.mp distinct
      obtain ⟨absent, free⟩ := List.forall_mem_cons.mp free
      have registered : registry.register first.1 first.2
          = .ok { registry with services := registry.services.insert first.1 first.2 } := by
        simp [register, KeyMap.contains, absent]
      rw [registerAll, List.foldlM_cons, registered]
      refine ih distinct fun service member => ?_
      have other : service.1 ≠ first.1 := fun same =>
        fresh (List.mem_map.mpr ⟨service, member, same⟩)
      rw [KeyMap.get?_insert, if_neg other, free service member]

/-- A module is only ever prepared with a registry of its own. -/
theorem Provider.prepareStep_congr {provider other : Provider σ S}
    (specs : provider.toSpec = other.toSpec)
    (same : ∀ manager state, provider.prepare manager ⟨provider.module, ∅⟩ state
      = other.prepare manager ⟨other.module, ∅⟩ state)
    : provider.prepareStep = other.prepareStep := by
  funext manager state
  unfold prepareStep
  rw [same, specs]

/-- Modules come up by the steps of their hooks alone. -/
theorem Provider.runPhases_congr {providers others : List (Provider σ S)}
    (alike : List.Forall₂
      (fun provider other => ∀ hook : Hook, hook.step provider = hook.step other) providers others)
    (state : σ)
    : runPhases providers state = runPhases others state := by
  have calls (hook : Hook) : forEach hook.step providers = forEach hook.step others := by
    induction alike with
    | nil => rfl
    | cons same _ ih =>
        funext manager state
        simp only [forEach, same hook, ih]
  have phase (hook : Hook) : thenPhase hook providers = thenPhase hook others := by
    funext outcome
    simp only [thenPhase, calls hook]
  rw [runPhases_eq, runPhases_eq, phase, phase, phase]

theorem bootstrap_eq_ok {providers ordered : List (Provider σ S)} {state left : σ}
    {manager : Manager S} (arranged : dependencyOrder Provider.toSpec providers = .ok ordered)
    (up : Provider.runPhases ordered state = (.ok manager, left))
    : bootstrap providers state = (.ok ⟨manager, ordered⟩, left) := by
  simp only [bootstrap, arranged, up]
  rfl

end Telemetry.Module

namespace Telemetry.Storage.Pyramid

/-- The pyramid of services that are made for some granularities has these levels. -/
theorem level?_ofList_map {α : Type} (granularities : List Granularity) (make : Granularity → α)
    (granularity : Granularity)
    : (ofList (granularities.map fun level => (level, make level))).level? granularity
      = if granularities.contains granularity then some (make granularity) else none := by
  have onto (base : Pyramid α)
      : ((granularities.map fun level => (level, make level)).foldl
          (fun acc level => acc.set level.1 level.2) base).level? granularity
        = if granularities.contains granularity then some (make granularity)
          else base.level? granularity := by
    induction granularities generalizing base with
    | nil => rfl
    | cons first rest ih =>
        rw [List.map_cons, List.foldl_cons, ih, List.contains_cons]
        by_cases same : granularity = first
        · subst same
          simp [set]
        · simp [set, same]
  exact onto {}

end Telemetry.Storage.Pyramid

namespace Telemetry.Collector

open Telemetry.Module Storage HasPlainForm

-----------------------------------------------------------------------------------------
-- The tables of a kind
-----------------------------------------------------------------------------------------

namespace RecordKind

/-- The table of a kind at a granularity with its rules, if it is kept there. -/
def descriptor? (kind : RecordKind) (granularity : Option Granularity) : Option Descriptor :=
  match kind.layout, granularity with
  | .levels base granularities, some granularity =>
      if granularities.contains granularity then
        some (.bucketed (granularity.tableName base) granularity)
      else none
  | .single descriptor, none => some descriptor
  | _, _ => none

theorem tableName?_eq (kind : RecordKind) (granularity : Option Granularity)
    : kind.tableName? granularity = (kind.descriptor? granularity).map (·.table) := by
  unfold tableName? descriptor?
  cases kind.layout <;> cases granularity <;> try rfl
  dsimp only
  split <;> rfl

theorem mem_all (kind : RecordKind) : kind ∈ all := by
  cases kind <;> decide

/-- The tables of a collector are those that its kinds have at some granularity. -/
theorem mem_allTables_iff {kind : RecordKind} {descriptor : Descriptor}
    : (kind, descriptor) ∈ allTables
      ↔ ∃ granularity, kind.descriptor? granularity = some descriptor := by
  have listed : (kind, descriptor) ∈ allTables ↔ descriptor ∈ kind.layout.descriptors := by
    simp [allTables, descriptors, mem_all]
  rw [listed]
  unfold descriptor? Layout.descriptors
  cases kind.layout with
  | levels base granularities => simp [Option.exists, eq_comm]
  | single own => simp [Option.exists, eq_comm]

/-- The table of a granularity keeps windows of that granularity under a name that starts with it.
-/
theorem of_descriptor?_some {kind : RecordKind} {granularity : Granularity}
    {descriptor : Descriptor} (kept : kind.descriptor? (some granularity) = some descriptor)
    : ∃ base, descriptor = .bucketed (granularity.tableName base) granularity := by
  unfold descriptor? at kept
  cases layout : kind.layout with
  | levels base granularities =>
      simp only [layout, Option.ite_none_right_eq_some] at kept
      exact ⟨base, (Option.some.inj kept.2).symm⟩
  | single own => simp [layout] at kept

/-- A kind with a single table takes no granularity. -/
theorem eq_none_of_descriptor? {kind : RecordKind} {granularity : Option Granularity}
    {descriptor twin : Descriptor} (single : kind.descriptor? none = some descriptor)
    (kept : kind.descriptor? granularity = some twin)
    : granularity = none := by
  unfold descriptor? at single kept
  cases layout : kind.layout with
  | levels base granularities => simp [layout] at single
  | single own =>
      cases granularity with
      | none => rfl
      | some granularity => simp [layout] at kept

/-- No two kinds or granularities share a table. -/
theorem descriptor?_inj {kind other : RecordKind} {granularity level : Option Granularity}
    {descriptor twin : Descriptor} (kept : kind.descriptor? granularity = some descriptor)
    (keptToo : other.descriptor? level = some twin) (same : descriptor.table = twin.table)
    : kind = other ∧ granularity = level ∧ descriptor = twin := by
  have one : (kind, descriptor) ∈ allTables := mem_allTables_iff.mpr ⟨_, kept⟩
  have two : (other, twin) ∈ allTables := mem_allTables_iff.mpr ⟨_, keptToo⟩
  cases eq_of_tableName one two same
  refine ⟨rfl, ?_, rfl⟩
  cases granularity with
  | none => exact (eq_none_of_descriptor? kept keptToo).symm
  | some granularity =>
      cases level with
      | none => exact eq_none_of_descriptor? keptToo kept
      | some level =>
          obtain ⟨base, rfl⟩ := of_descriptor?_some kept
          obtain ⟨other, made⟩ := of_descriptor?_some keptToo
          have retained := congrArg Descriptor.retention made
          cases retained
          rfl

end RecordKind

-----------------------------------------------------------------------------------------
-- The services of the storage module
-----------------------------------------------------------------------------------------

/-- What the tables of a kind are looked up for. -/
inductive Access where
  /-- Reading rows. -/
  | persistence
  /-- Taking new records. -/
  | sink

namespace Access

/-- The interface of one table. -/
def single : Access → RecordKind → Interface
  | persistence => .persistence
  | sink => .sink

/-- The interface of the tables at several granularities. -/
def levels : Access → RecordKind → Interface
  | persistence => .persistenceLevels
  | sink => .sinkLevels

/-- The table that the services name. -/
def table (access : Access) (manager : Manager Service) (kind : RecordKind)
    (granularity : Option Granularity)
    : Except Error String :=
  match access with
  | persistence => persistenceTable manager kind granularity
  | sink => sinkTable manager kind granularity

/-- The interface that is looked up first. -/
def interface (access : Access) (kind : RecordKind) : Option Granularity → Interface
  | none => access.single kind
  | some _ => access.levels kind

/-- The service that is missing if a kind is not kept at a granularity. -/
def missing (access : Access) (kind : RecordKind) (granularity : Option Granularity) : String :=
  match kind.layout, granularity with
  | .levels _ _, some granularity => granularity.name ++ " " ++ (access.single kind).name
  | _, _ => (access.interface kind granularity).name

theorem table_eq (access : Access) (manager : Manager Service) (kind : RecordKind)
    (granularity : Option Granularity)
    : access.table manager kind granularity =
        match granularity with
        | none => singleTable manager (access.single kind)
        | some granularity =>
            levelTable manager (access.levels kind) (access.single kind) granularity := by
  cases access <;> cases granularity <;> rfl

end Access

theorem nodup_storageServices : (storageServices.map (·.1)).Nodup := by
  decide +kernel

theorem registerAll_storageServices
    : Registry.registerAll ⟨storageModule, ∅⟩ storageServices
      = .ok ⟨storageModule, .ofList storageServices⟩ :=
  Registry.registerAll_eq_insertAll nodup_storageServices fun _ _ => KeyMap.get?_empty _

/-- The services of a kind are among those of the storage module. -/
theorem lookup_storageServices (kind : RecordKind) {interface : String} {service : Service}
    (provided : (interface, service) ∈ kindServices kind)
    : storageServices.lookup interface = some service :=
  KeyMap.lookup_of_mem nodup_storageServices
    (List.mem_append_left _ (List.mem_flatMap.mpr ⟨kind, kind.mem_all, provided⟩))

/-- The tables at several granularities are one service, whatever they are looked up for. -/
theorem lookup_levels {kind : RecordKind} {base : String} {granularities : List Granularity}
    (layout : kind.layout = .levels base granularities) (access : Access)
    : storageServices.lookup (access.levels kind).name
      = some (.tableLevels (.ofList (granularities.map fun granularity =>
          (granularity, granularity.tableName base)))) := by
  refine lookup_storageServices kind ?_
  unfold kindServices
  rw [layout]
  cases access <;> simp [Access.levels]

/-- A single table is one service, whatever it is looked up for. -/
theorem lookup_single {kind : RecordKind} {descriptor : Descriptor}
    (layout : kind.layout = .single descriptor) (access : Access)
    : storageServices.lookup (access.single kind).name = some (.table descriptor.table) := by
  refine lookup_storageServices kind ?_
  unfold kindServices
  rw [layout]
  cases access <;> simp [Access.single]

/-- A kind that is kept at several granularities has no service of one table. -/
theorem lookup_single_eq_none {kind : RecordKind} {base : String} {granularities : List Granularity}
    (layout : kind.layout = .levels base granularities) (access : Access)
    : storageServices.lookup (access.single kind).name = none := by
  cases kind <;> cases layout <;> cases access <;>
    exact Option.isNone_iff_eq_none.mp (by decide +kernel)

/-- A kind that is kept in one table has no services at granularities. -/
theorem lookup_levels_eq_none {kind : RecordKind} {descriptor : Descriptor}
    (layout : kind.layout = .single descriptor) (access : Access)
    : storageServices.lookup (access.levels kind).name = none := by
  cases kind <;> cases layout <;> cases access <;>
    exact Option.isNone_iff_eq_none.mp (by decide +kernel)

section Backed

variable {manager : Manager Service} {storage : Option StorageState}

/-- A backed collector with the storage module provides its services and no others. -/
theorem IsBacked.service_eq (backed : IsBacked manager storage) {loaded : LoadedModule Service}
    (found : manager.find? storageModule = some loaded) (interface : String)
    : manager.service storageModule interface =
        match storageServices.lookup interface with
        | some service => .ok service
        | none => .error (.serviceNotProvided storageModule interface) := by
  obtain ⟨registered, _⟩ := backed loaded found
  have same : loaded.services = ⟨storageModule, .ofList storageServices⟩ :=
    Except.ok.inj (registered.symm.trans registerAll_storageServices)
  have held := KeyMap.get?_ofList nodup_storageServices interface
  simp only [Manager.service, found, Registry.get, same, held]
  cases storageServices.lookup interface <;> rfl

theorem lookUp_of_service_ok {α : Type} {module : String} {interface : Interface}
    {service : Service} (found : manager.service module interface.name = .ok service)
    (take? : Service → Option α)
    : lookUp manager module interface take? =
        match take? service with
        | some found => .ok found
        | none => .error (.serviceNotProvided module interface.name) := by
  simp only [lookUp, found, bind, Except.bind]
  cases take? service <;> rfl

theorem lookUp_of_service_error {α : Type} {module : String} {interface : Interface} {error : Error}
    (failed : manager.service module interface.name = .error error) (take? : Service → Option α)
    : lookUp manager module interface take? = .error error := by
  simp only [lookUp, failed, bind, Except.bind]

/-- The services name the table that a kind has at a granularity, and fail if it has none. -/
theorem IsBacked.table_eq (backed : IsBacked manager storage) {loaded : LoadedModule Service}
    (found : manager.find? storageModule = some loaded) (access : Access) (kind : RecordKind)
    (granularity : Option Granularity)
    : access.table manager kind granularity =
        match kind.descriptor? granularity with
        | some descriptor => .ok descriptor.table
        | none => .error (.serviceNotProvided storageModule (access.missing kind granularity)) := by
  have service := backed.service_eq found
  rw [access.table_eq]
  unfold RecordKind.descriptor? Access.missing
  cases layout : kind.layout with
  | levels base granularities =>
      cases granularity with
      | none =>
          have absent := service (access.single kind).name
          rw [lookup_single_eq_none layout] at absent
          exact lookUp_of_service_error absent _
      | some granularity =>
          have levels := service (access.levels kind).name
          rw [lookup_levels layout] at levels
          simp only [levelTable, lookUp_of_service_ok levels, bind, Except.bind, Pyramid.level,
            Pyramid.level?_ofList_map]
          cases granularities.contains granularity <;> rfl
  | single descriptor =>
      cases granularity with
      | none =>
          have single := service (access.single kind).name
          rw [lookup_single layout] at single
          exact lookUp_of_service_ok single _
      | some granularity =>
          have absent := service (access.levels kind).name
          rw [lookup_levels_eq_none layout] at absent
          simp only [levelTable, lookUp_of_service_error absent, bind, Except.bind]
          rfl

/-- Without the storage module there is no table at all. -/
theorem table_eq_of_absent (absent : manager.find? storageModule = none) (access : Access)
    (kind : RecordKind) (granularity : Option Granularity)
    : access.table manager kind granularity =
        .error (.serviceNotProvided storageModule (access.interface kind granularity).name) := by
  have service (interface : Interface)
      : manager.service storageModule interface.name
        = .error (.serviceNotProvided storageModule interface.name) := by
    simp only [Manager.service, absent]
  rw [access.table_eq]
  cases granularity with
  | none => exact lookUp_of_service_error (service _) _
  | some granularity =>
      simp only [levelTable, lookUp_of_service_error (service _), bind, Except.bind]
      rfl

end Backed

-----------------------------------------------------------------------------------------
-- What a record changes
-----------------------------------------------------------------------------------------

namespace Archive

/-- All tables of a sound archive are there with workers of their own rules. -/
theorem IsSound.exists_worker {S : Type} {archive : Archive S} (h : archive.IsSound)
    (complete : archive.HasAllTables) {kind : RecordKind} {descriptor : Descriptor}
    (listed : (kind, descriptor) ∈ allTables)
    : ∃ worker : Worker kind.Carrier, worker.descriptor = descriptor
        ∧ archive.worker? kind descriptor.table = some worker := by
  obtain ⟨⟨own, worker⟩, bound, rules⟩ := complete _ listed
  have setUp := h _ _ bound
  have same : (own, worker.descriptor) = (kind, descriptor) :=
    eq_of_tableName setUp.listed listed setUp.named
  cases same
  refine ⟨worker, rfl, ?_⟩
  unfold worker?
  rw [bound]
  exact dif_pos rfl

variable {S : Type} [TableStore S]

/-- The operation for a place is about that place. -/
theorem IsSound.key_of_operation? {archive : Archive S} (h : archive.IsSound) {name id : String}
    {operation : Operation} (drained : archive.operation? name id = some operation)
    : operation.key = (name, id) := by
  obtain ⟨table, bound, more⟩ := Option.bind_eq_some_iff.mp drained
  obtain ⟨record, staged, prepared⟩ := Option.bind_eq_some_iff.mp more
  obtain ⟨own, identity⟩ := Worker.prepare_names (ok_of_toOption prepared)
  have named : table.worker.descriptor.table = name := (h name table bound).named
  exact Prod.ext (own.trans named) (identity.trans ((h name table bound).keyed id record staged))

/-- A batch consists of the operations for all places. -/
theorem IsSound.mem_batch_iff_operation? {archive : Archive S} (h : archive.IsSound)
    {operation : Operation}
    : operation ∈ archive.batch
      ↔ archive.operation? operation.table operation.id = some operation := by
  constructor
  · intro member
    obtain ⟨table, record, bound, staged, prepared⟩ := h.of_mem_batch member
    simp [operation?, bound, staged, prepared, Except.toOption]
  · intro drained
    obtain ⟨table, bound, more⟩ := Option.bind_eq_some_iff.mp drained
    obtain ⟨record, staged, prepared⟩ := Option.bind_eq_some_iff.mp more
    exact (h.mem_batch_iff bound rfl).mpr ⟨record, staged, ok_of_toOption prepared⟩

/-- One archive is another one but for the record that is staged in one place. Whatever the store
holds by then, a drain yields the same operations for every other table and every other place, and
the operation for the place, if there is one, is about its table and its id.
-/
structure ChangesAt (place : String × String) (before after : Archive S) : Prop where
  store : after.store = before.store
  staged (table id : String)
    : (table, id) ≠ place → after.staged? table id = before.staged? table id
  tables (store : S) (table : String)
    : table ≠ place.1 → Archive.operations { after with store } table
        = Archive.operations { before with store } table
  places (store : S) (operation : Operation)
    : operation.key ≠ place → (operation ∈ Archive.batch { after with store }
        ↔ operation ∈ Archive.batch { before with store })
  own (store : S) (operation : Operation)
    : Archive.operation? { after with store } place.1 place.2 = some operation →
        operation.key = place ∧ operation ∈ Archive.batch { after with store }

/-- A worker that takes a record changes what is staged under its id. -/
theorem IsSound.changesAt_insert [HasPlainForm S] {archive : Archive S} (h : archive.IsSound)
    {kind : RecordKind} {name : String} {worker next : Worker kind.Carrier} {record : kind.Carrier}
    {what : Worker.Ingested} (found : archive.worker? kind name = some worker)
    (ingested : worker.ingest record = .ok (what, next))
    : archive.ChangesAt (name, record.id)
        { archive with tables := archive.tables.insert name ⟨kind, next⟩ } := by
  have stepped (store : S)
      : Archive.step { archive with store } (.ingest kind name record)
        = { archive with store, tables := archive.tables.insert name ⟨kind, next⟩ } := by
    have found : Archive.worker? { archive with store } kind name = some worker := found
    simp [Archive.step, ingest_of_worker found, ingested, Except.map, Except.toOption]
  have alike (store : S) := matches_ingest { archive with store } kind name record
  simp only [stepped] at alike
  have before (store : S) : Archive.IsSound { archive with store } := h
  have after (store : S) : Archive.IsSound
      { archive with store, tables := archive.tables.insert name ⟨kind, next⟩ } :=
    stepped store ▸ (before store).step (.ingest kind name record)
  refine ⟨rfl, fun table id => (alike archive.store).staged?_eq, ?_, ?_, ?_⟩
  · intro store table other
    unfold operations
    rw [KeyMap.get?_insert, if_neg other]
  · intro store operation elsewhere
    rw [(after store).mem_batch_iff_operation?, (before store).mem_batch_iff_operation?,
      (alike store).operation?_eq (after store) elsewhere]
  · intro store operation drained
    have about := (after store).key_of_operation? drained
    have table : operation.table = name := congrArg Prod.fst about
    have id : operation.id = record.id := congrArg Prod.snd about
    exact ⟨about, (after store).mem_batch_iff_operation?.mpr (by rwa [table, id])⟩

end Archive

-----------------------------------------------------------------------------------------
-- Start-up
-----------------------------------------------------------------------------------------

/-- The storage module comes last, as it requires the other two. -/
theorem dependencyOrder_storageProvider (member instanceId clusterName space : String)
    (ttl : Duration) (settings : Settings.StorageSettings)
    : let cluster := clusterProvider member ttl
      let configuration := configurationProvider clusterName space
      let storage := storageProvider member instanceId settings
      dependencyOrder Provider.toSpec [storage, cluster, configuration]
        = .ok [cluster, configuration, storage] := by
  intro cluster configuration storage
  have distinct : checkDistinct [] ([storage, cluster, configuration].map Provider.toSpec)
      = .ok () := rfl
  have met : checkRequirements ([storage, cluster, configuration].map Provider.toSpec)
      = .ok () := rfl
  have arranged : arrange Provider.toSpec [] [storage, cluster, configuration]
      = .ok [cluster, configuration, storage] := by
    rw [@arrange_of_ready _ _ _ _ cluster rfl, @arrange_of_ready _ _ _ _ configuration rfl,
      @arrange_of_ready _ _ _ _ storage rfl, arrange_of_stuck rfl]
    rfl
  unfold dependencyOrder
  rw [distinct, met]
  exact arranged

/-- The storage module can be prepared at every site. -/
theorem prepareStorage_eq (member : String) (settings : Settings.StorageSettings) (site : Site)
    : prepareStorage member settings ⟨storageModule, ∅⟩ site
      = (.ok ⟨storageModule, .ofList storageServices⟩,
          { site with
            network := site.network.addListener member storageModule
            storage := some {
              archive := .onStore (.ofKind settings.backend) (mergeMode settings) } }) := by
  unfold prepareStorage
  rw [registerAll_storageServices]
  rfl

/-- The provider of the storage module with its services at hand, so that a start-up is evaluated
without registering them one after the other.
-/
def preparedStorage (member instanceId : String) (settings : Settings.StorageSettings)
    : Provider Site Service :=
  { storageProvider member instanceId settings with
    prepare := fun _ _ site => (.ok ⟨storageModule, .ofList storageServices⟩,
      { site with
        network := site.network.addListener member storageModule
        storage := some {
          archive := .onStore (.ofKind settings.backend) (mergeMode settings) } }) }

theorem step_storageProvider (member instanceId : String) (settings : Settings.StorageSettings)
    (hook : Hook)
    : hook.step (storageProvider member instanceId settings)
      = hook.step (preparedStorage member instanceId settings) := by
  cases hook with
  | prepare =>
      exact Provider.prepareStep_congr rfl fun _ site => prepareStorage_eq member settings site
  | start | notify => rfl

namespace Deployment

/-- The first collector of a deployment is there if its modules come up. -/
theorem get?_started {name : String} {modules : List CollectorModule}
    {running : Running Site Service} {left : Site}
    (up : bootstrap (modules.map (·.provider "0")) ⟨{}, {}, none⟩ = (.ok running, left))
    : (afterSteps [.start name false modules]).collectors.get? name
      = some ⟨running, "0", sharedNetwork, left.storage⟩ := by
  have alone : bootstrap (modules.map (·.provider (toString 0)))
      ⟨({ started := 1 } : Deployment).network sharedNetwork, {}, none⟩ = (.ok running, left) := up
  change (start {} name false fun member => modules.map (·.provider member)).2.collectors.get? name
    = _
  simp only [start, Bool.false_eq_true, if_false, Nat.zero_add, alone, KeyMap.get?_insert, if_true]
  rfl

end Deployment

-----------------------------------------------------------------------------------------
-- Dispatch
-----------------------------------------------------------------------------------------

namespace Deployment

variable {deployment : Deployment} {name : String} {collector : Instance} {record : StreamRecord}

/-- A record for which the services name no table changes nothing. -/
theorem accept_of_unrouted {error : Error}
    (found : deployment.collectors.get? name = some collector)
    (failed : sinkTable collector.running.manager record.kind record.granularity = .error error)
    : accept name record deployment = (.error error, deployment) := by
  simp only [accept, found, dispatch, failed, bind, Except.bind]

/-- A record for which the services name a table goes to the worker of that table. -/
theorem accept_of_routed {table : String} {storage : StorageState}
    {worker : Worker record.kind.Carrier}
    (found : deployment.collectors.get? name = some collector)
    (routed : sinkTable collector.running.manager record.kind record.granularity = .ok table)
    (kept : collector.storage = some storage)
    (working : storage.archive.worker? record.kind table = some worker)
    : accept name record deployment =
        match worker.ingest record.record with
        | .error error => (.error error, deployment)
        | .ok (what, next) => (.ok (), deployment.withArchive name collector
            { storage.archive with
              tables := storage.archive.tables.insert table ⟨record.kind, next⟩ }
            (what.measurements table)) := by
  simp only [accept, found, dispatch, routed, kept, Archive.ingest_of_worker working, bind,
    Except.bind]
  cases worker.ingest record.record <;> rfl

end Deployment

namespace Instance

/-- The table that a collector has for a kind at a granularity. -/
def descriptor? (collector : Instance) (kind : RecordKind) (granularity : Option Granularity)
    : Option Descriptor :=
  (collector.running.manager.find? storageModule).bind fun _ => kind.descriptor? granularity

/-- Whatever a collector has for a table is about this table of its store: what looks up rows or
takes records finds its name, rows are read there, the worker has its rules, what a cycle drains
from it is written there, and a sweep drops old rows there by the windows of its granularity, if
all rows there can be read.
-/
structure Serves (collector : Instance) (archive : Archive Backend) (kind : RecordKind)
    (granularity : Option Granularity) (descriptor : Descriptor)
    : Prop where
  named : kind.tableName? granularity = some descriptor.table
  reads : persistenceTable collector.running.manager kind granularity = .ok descriptor.table
  takes : sinkTable collector.running.manager kind granularity = .ok descriptor.table
  fetches (id : String)
    : collector.fetch kind granularity id
      = (descriptor.fetch kind.Carrier archive.store id).map (descriptor.table, ·)
  stages : ∃ worker : Worker kind.Carrier, worker.descriptor = descriptor
    ∧ archive.worker? kind descriptor.table = some worker
  cycled : descriptor.table ∈ tableNames
  drains : ∀ operation ∈ archive.operations descriptor.table, operation.table = descriptor.table
  flushes (timeout : Duration) (deadline : Deadline) (id : String)
    : stored? (archive.cycle timeout deadline).archive.store descriptor.table id
      = if (HasPlainForm.kind archive.store).drops deadline then
          stored? archive.store descriptor.table id
        else
          (archive.operation? descriptor.table id).toList.foldl
            (fun row operation => operation.after (HasPlainForm.kind archive.store).row row)
            (stored? archive.store descriptor.table id)
  targeted : descriptor.target ∈ TableSet.targets Backend archive.tables tableNames
  targets : ∀ target ∈ TableSet.targets Backend archive.tables tableNames,
    target.table = descriptor.table → target = descriptor.target
  sweeps (view : Cluster.View) (registration : Cluster.Registration) (ttlDays : Nat)
    (now : Instant) (id : String)
    : stored? (archive.sweep view registration ttlDays now).archive.store descriptor.table id
      = (stored? archive.store descriptor.table id).filter fun row =>
          !(view.isElected registration && (PlainStore.isReadable (archive.rows descriptor.table)
            && row.any (descriptor.drops 0 (retentionEnd now ttlDays))))
  retains (level : Granularity)
    : granularity = some level → descriptor.retention = some ⟨"time_bucket", level⟩
        ∧ ∃ base, descriptor.table = level.tableName base

namespace IsSound

variable {collector : Instance} {kind : RecordKind} {granularity : Option Granularity}
variable {descriptor : Descriptor} {storage : StorageState}

/-- A collector serves the tables of its kinds if its archive has all of them. -/
theorem serves_archive (h : collector.IsSound) {loaded : LoadedModule Service}
    (found : collector.running.manager.find? storageModule = some loaded)
    (kept : kind.descriptor? granularity = some descriptor)
    (same : collector.storage = some storage) (sound : storage.archive.IsSound)
    (complete : storage.archive.HasAllTables)
    : collector.Serves storage.archive kind granularity descriptor := by
  have listed : (kind, descriptor) ∈ allTables := RecordKind.mem_allTables_iff.mpr ⟨_, kept⟩
  have routed (access : Access)
      : access.table collector.running.manager kind granularity = .ok descriptor.table := by
    rw [h.backed.table_eq found, kept]
  have reads : persistenceTable collector.running.manager kind granularity = .ok descriptor.table :=
    routed .persistence
  have targets := Archive.targets_eq complete
  obtain ⟨worker, rules, working⟩ := sound.exists_worker complete listed
  exact {
    reads
    takes := routed .sink
    stages := ⟨worker, rules, working⟩
    named := by rw [kind.tableName?_eq, kept, Option.map_some]
    cycled := List.mem_map_of_mem listed
    drains := fun operation drained => (sound.of_mem_operations drained).1
    flushes := fun timeout deadline id =>
      sound.stored?_cycle timeout deadline descriptor.table id
    fetches := by
      intro id
      have fetched : storage.archive.fetch kind descriptor.table id
          = descriptor.fetch kind.Carrier storage.archive.store id := by
        simp only [Archive.fetch, working, rules]
      simp only [fetch, reads, same, bind, Except.bind, fetched]
      cases descriptor.fetch kind.Carrier storage.archive.store id <;> rfl
    targeted := by
      rw [targets]
      exact List.mem_map_of_mem (List.mem_map_of_mem listed)
    targets := by
      intro target member sameTable
      rw [targets] at member
      obtain ⟨other, among, rfl⟩ := List.mem_map.mp member
      obtain ⟨one, inAll, rfl⟩ := List.mem_map.mp among
      cases eq_of_tableName inAll listed sameTable
      rfl
    sweeps := by
      intro view registration ttlDays now id
      have dropped : Archive.drops descriptor.table (cutoff now ttlDays)
          = descriptor.drops 0 (retentionEnd now ttlDays) := by
        funext row
        rw [Archive.drops_eq_of_mem listed, retentionEnd_eq]
      rw [complete.stored?_sweep]
      simp only [Archive.loses, dropped]
    retains := by
      rintro level rfl
      obtain ⟨base, rfl⟩ := RecordKind.of_descriptor?_some kept
      exact ⟨rfl, base, rfl⟩ }

/-- A sound collector serves every table that it has. -/
theorem serves (h : collector.IsSound)
    (kept : collector.descriptor? kind granularity = some descriptor)
    : ∃ storage, collector.storage = some storage ∧ storage.archive.IsSound
        ∧ collector.Serves storage.archive kind granularity descriptor := by
  obtain ⟨loaded, found, kept⟩ := Option.bind_eq_some_iff.mp kept
  obtain ⟨_, storage, same, sound, complete⟩ := h.backed loaded found
  exact ⟨storage, same, sound, h.serves_archive found kept same sound complete⟩

end IsSound

end Instance

namespace Deployment

/-- A record reaches one table, whatever happened to the collectors before. Without a table for its
kind at its granularity it is refused, as a service that is not provided, and nothing changes. Else
it goes to the worker of its table: if that refuses it nothing changes either, and if it takes it
then at most what is staged under its id in that table changes, and no other collector. Everything
that a collector has for a table is about that table, and no two kinds or granularities share one.
-/
theorem accept_reaches_one_table (steps : List DeploymentStep) {name : String}
    {collector : Instance} (found : (afterSteps steps).collectors.get? name = some collector)
    (record : StreamRecord)
    : let deployment := afterSteps steps
      (collector.descriptor? record.kind record.granularity = none →
        ∃ service, accept name record deployment
            = (.error (.serviceNotProvided storageModule service), deployment)
          ∧ (collector.running.manager.find? storageModule ≠ none →
            service = Access.missing .sink record.kind record.granularity))
      ∧ (∀ descriptor, collector.descriptor? record.kind record.granularity = some descriptor →
        ∃ storage, collector.storage = some storage
          ∧ ∃ worker : Worker record.kind.Carrier, worker.descriptor = descriptor
          ∧ storage.archive.worker? record.kind descriptor.table = some worker
          ∧ (∀ error, worker.ingest record.record = .error error →
            accept name record deployment = (.error error, deployment))
          ∧ ∀ answer, worker.ingest record.record = .ok answer →
            ∃ next archive, accept name record deployment = (.ok (), next)
              ∧ next.archive? name = some archive
              ∧ storage.archive.ChangesAt (descriptor.table, record.record.id) archive
              ∧ ∀ other ≠ name,
                next.collectors.get? other = deployment.collectors.get? other)
      ∧ (∀ kind granularity descriptor, collector.descriptor? kind granularity = some descriptor →
        ∃ storage, collector.storage = some storage
          ∧ collector.Serves storage.archive kind granularity descriptor)
      ∧ ∀ kind granularity descriptor other level twin,
          collector.descriptor? kind granularity = some descriptor →
          collector.descriptor? other level = some twin → descriptor.table = twin.table →
          kind = other ∧ granularity = level := by
  intro deployment
  have sound : collector.IsSound := isSound_afterSteps steps name collector found
  refine ⟨fun absent => ?_, fun descriptor kept => ?_, fun kind granularity descriptor kept => ?_,
    ?_⟩
  · cases running : collector.running.manager.find? storageModule with
    | none =>
        have failed := table_eq_of_absent running .sink record.kind record.granularity
        exact ⟨_, accept_of_unrouted found failed, fun runs => absurd rfl runs⟩
    | some loaded =>
        rw [Instance.descriptor?, running, Option.bind_some] at absent
        have failed := sound.backed.table_eq running .sink record.kind record.granularity
        rw [absent] at failed
        exact ⟨_, accept_of_unrouted found failed, fun _ => rfl⟩
  · obtain ⟨storage, same, archiveSound, serves⟩ := sound.serves kept
    obtain ⟨worker, rules, working⟩ := serves.stages
    have accepted := accept_of_routed found serves.takes same working
    refine ⟨storage, same, worker, rules, working, fun error refused => ?_, fun answer taken => ?_⟩
    · rw [accepted, refused]
    · obtain ⟨what, next⟩ := answer
      rw [taken] at accepted
      refine ⟨_, _, accepted, ?_, archiveSound.changesAt_insert working taken, fun other ne => ?_⟩
      · simp [archive?, withArchive, KeyMap.get?_insert, same]
      · exact (KeyMap.get?_insert _ _ _ _).trans (if_neg ne)
  · obtain ⟨storage, same, _, serves⟩ := sound.serves kept
    exact ⟨storage, same, serves⟩
  · intro kind granularity descriptor other level twin kept keptToo sameTable
    obtain ⟨_, _, kept⟩ := Option.bind_eq_some_iff.mp kept
    obtain ⟨_, _, keptToo⟩ := Option.bind_eq_some_iff.mp keptToo
    obtain ⟨kinds, levels, _⟩ := RecordKind.descriptor?_inj kept keptToo sameTable
    exact ⟨kinds, levels⟩

/-- A collector that has just been started, in memory and with all of its modules. -/
def memoryCollector : List DeploymentStep :=
  [.start "collector" false
    [.storage "a" { backend := .memory }, .cluster 3600000, .configuration "test" ""]]

/-- The collector comes up with its storage module, which takes the metric of a day. -/
theorem exists_memoryCollector
    : ∃ collector, (afterSteps memoryCollector).collectors.get? "collector" = some collector
        ∧ (collector.running.manager.find? storageModule).isSome = true
        ∧ ∀ storage worker, collector.storage = some storage →
            storage.archive.worker? .cpuMetric "day_cpu_metric" = some worker →
            (worker.ingest (Archive.cpuOfDay 20240106).record).isOk = true := by
  let cluster := clusterProvider "0" 3600000
  let configuration := configurationProvider "test" ""
  let storage := storageProvider "0" "a" { backend := .memory }
  let ready := preparedStorage "0" "a" { backend := .memory }
  let site : Site := ⟨{}, {}, none⟩
  have ordered : dependencyOrder Provider.toSpec [storage, cluster, configuration]
      = .ok [cluster, configuration, storage] :=
    dependencyOrder_storageProvider "0" "a" "test" "" 3600000 _
  have phases : Provider.runPhases [cluster, configuration, storage] site
      = Provider.runPhases [cluster, configuration, ready] site := by
    refine Provider.runPhases_congr (.cons (fun _ => rfl) (.cons (fun _ => rfl) (.cons ?_ .nil))) _
    exact step_storageProvider "0" "a" _
  have evaluated : (Provider.runPhases [cluster, configuration, ready] site).1.toOption.any
      (fun manager => (manager.find? storageModule).isSome)
      && (Provider.runPhases [cluster, configuration, ready] site).2.storage.all fun storage =>
        (storage.archive.worker? .cpuMetric "day_cpu_metric").all fun worker =>
          (worker.ingest (Archive.cpuOfDay 20240106).record).isOk := by
    decide +kernel
  cases outcome : Provider.runPhases [cluster, configuration, ready] site with
  | mk result left =>
      rw [outcome, Bool.and_eq_true] at evaluated
      obtain ⟨up, takes⟩ := evaluated
      obtain ⟨manager, came, runs⟩ := (Option.any_eq_true _ _).mp up
      obtain rfl := ok_of_toOption came
      have boot := bootstrap_eq_ok ordered (phases.trans outcome)
      refine ⟨_, get?_started boot, runs, fun storage worker same working => ?_⟩
      have takesAll := (Option.all_eq_true _ _).mp takes storage same
      exact (Option.all_eq_true _ _).mp takesAll worker working

/-- A CPU metric of a day changes what is staged for its day, and an alarm of a second changes
nothing, as alarms are not kept by seconds.
-/
theorem accept_reaches_one_table_of_day
    : let deployment := afterSteps memoryCollector
      let alarm : StreamRecord := ⟨.applicationAlarm, some .second, .blank _⟩
      ∃ collector, deployment.collectors.get? "collector" = some collector
        ∧ (∃ storage next archive, collector.storage = some storage
          ∧ accept "collector" (Archive.cpuOfDay 20240106) deployment = (.ok (), next)
          ∧ next.archive? "collector" = some archive
          ∧ storage.archive.ChangesAt ("day_cpu_metric", "a") archive)
        ∧ accept "collector" alarm deployment
          = (.error (.serviceNotProvided storageModule (Access.missing .sink .applicationAlarm
              (some .second))), deployment) := by
  obtain ⟨collector, found, running, takes⟩ := exists_memoryCollector
  obtain ⟨loaded, running⟩ := Option.isSome_iff_exists.mp running
  have cpu : collector.descriptor? .cpuMetric (some .day)
      = some (.bucketed "day_cpu_metric" .day) := by
    rw [Instance.descriptor?, running, Option.bind_some]
    decide +kernel
  have noAlarm : collector.descriptor? .applicationAlarm (some .second) = none := by
    rw [Instance.descriptor?, running, Option.bind_some]
    decide +kernel
  refine ⟨collector, found, ?_, ?_⟩
  · obtain ⟨storage, same, worker, _, working, _, taken⟩ :=
      (accept_reaches_one_table memoryCollector found (Archive.cpuOfDay 20240106)).2.1 _ cpu
    obtain ⟨answer, outcome⟩ := exists_of_isOk (takes storage worker same working)
    obtain ⟨next, archive, staged, left, changes, _⟩ := taken answer outcome
    exact ⟨storage, next, archive, same, staged, left, changes⟩
  · obtain ⟨service, failed, named⟩ :=
      (accept_reaches_one_table memoryCollector found
        ⟨.applicationAlarm, some .second, .blank _⟩).1 noAlarm
    have runs : collector.running.manager.find? storageModule ≠ none := by simp [running]
    rw [failed, named runs]

end Deployment

end Telemetry.Collector
