import Telemetry.Proofs.Collector.ReplayedLines
import Telemetry.Proofs.Collector.UntouchedPlaces
import Telemetry.Proofs.Module.BootstrapLifecycle

/-! What holds of every running collector, however the deployment came to be: if it runs the storage
module, then the services of this module are those of all tables, and all tables are there.
-/

namespace Telemetry.Module

variable {σ S : Type}

-----------------------------------------------------------------------------------------
-- Phases that keep an invariant
-----------------------------------------------------------------------------------------

namespace Manager

/-- A module that is added hides none of those before it. -/
theorem find?_add_eq_or (manager : Manager S) (loaded : LoadedModule S) (module : String)
    : (manager.add loaded).find? module = manager.find? module
      ∨ manager.find? module = none ∧ loaded.name = module
        ∧ (manager.add loaded).find? module = some loaded := by
  unfold find? add
  rw [List.find?_append]
  cases found : manager.modules.find? (·.name = module) with
  | some first => exact .inl rfl
  | none =>
      by_cases same : loaded.name = module
      · exact .inr ⟨rfl, same, by simp [same]⟩
      · exact .inl (by simp [same])

end Manager

/-- A hook keeps what it finds if it succeeds. -/
def Hook.KeepsAt (hook : Hook) (P : Manager S → σ → Prop) (provider : Provider σ S) : Prop :=
  ∀ manager state next left, P manager state →
    hook.step provider manager state = (.ok next, left) → P next left

namespace Provider

variable {P : Manager S → σ → Prop} {providers : List (Provider σ S)}

theorem prepareStep_eq_ok {provider : Provider σ S} {manager next : Manager S} {state left : σ}
    (stepped : provider.prepareStep manager state = (.ok next, left))
    : ∃ services, provider.prepare manager ⟨provider.module, ∅⟩ state = (.ok services, left)
        ∧ next = manager.add ⟨provider.module, provider.provider, .prepared, services⟩ := by
  obtain ⟨result, rfl⟩ := Prod.ext_iff.mp stepped
  obtain ⟨services, prepared, rfl⟩ := map_eq_ok.mp result
  exact ⟨services, Prod.ext prepared rfl, rfl⟩

theorem startStep_eq_ok {provider : Provider σ S} {manager next : Manager S} {state left : σ}
    (stepped : provider.startStep manager state = (.ok next, left))
    : provider.start manager state = (.ok (), left)
      ∧ next = manager.setState provider.module .started := by
  obtain ⟨result, rfl⟩ := Prod.ext_iff.mp stepped
  obtain ⟨_, started, rfl⟩ := map_eq_ok.mp result
  exact ⟨Prod.ext started rfl, rfl⟩

theorem notifyStep_eq_ok {provider : Provider σ S} {manager next : Manager S} {state left : σ}
    (stepped : provider.notifyStep manager state = (.ok next, left))
    : provider.notify manager state = (.ok (), left)
      ∧ next = manager.setState provider.module .ready := by
  obtain ⟨result, rfl⟩ := Prod.ext_iff.mp stepped
  obtain ⟨_, notified, rfl⟩ := map_eq_ok.mp result
  exact ⟨Prod.ext notified rfl, rfl⟩

/-- A phase that succeeds keeps what all of its hooks keep, by induction over the providers. -/
theorem forEach_keeps {hook : Hook} (kept : ∀ provider ∈ providers, hook.KeepsAt P provider)
    {manager last : Manager S} {state left : σ} (before : P manager state)
    (succeeded : forEach hook.step providers manager state = (.ok last, left))
    : P last left := by
  induction providers generalizing manager state with
  | nil => cases succeeded; exact before
  | cons provider rest ih =>
      obtain ⟨here, later⟩ := List.forall_mem_cons.mp kept
      rw [forEach] at succeeded
      split at succeeded
      · next next reached stepped => exact ih later (here _ _ _ _ before stepped) succeeded
      · cases succeeded

/-- Modules that come up keep what all of their hooks keep. -/
theorem runPhases_keeps (kept : ∀ provider ∈ providers, ∀ hook : Hook, hook.KeepsAt P provider)
    {last : Manager S} {state left : σ} (before : P {} state)
    (succeeded : runPhases providers state = (.ok last, left))
    : P last left := by
  have phase (hook : Hook) : ∀ manager next state left, P manager state →
      forEach hook.step providers manager state = (.ok next, left) → P next left :=
    fun _ _ _ _ => forEach_keeps fun provider member => kept provider member hook
  unfold runPhases at succeeded
  split at succeeded
  · cases succeeded
  · next prepared =>
    split at succeeded
    · cases succeeded
    · next started =>
      have before := phase .prepare _ _ _ _ before prepared
      have before := phase .start _ _ _ _ before started
      exact phase .notify _ _ _ _ before succeeded

end Provider

/-- Modules that came up keep what all of their hooks keep, and run with the providers that were
given.
-/
theorem bootstrap_keeps {P : Manager S → σ → Prop} {providers : List (Provider σ S)}
    (kept : ∀ provider ∈ providers, ∀ hook : Hook, hook.KeepsAt P provider)
    {state left : σ} {running : Running σ S} (before : P {} state)
    (succeeded : bootstrap providers state = (.ok running, left))
    : P running.manager left ∧ ∀ provider ∈ running.providers, provider ∈ providers := by
  unfold bootstrap at succeeded
  split at succeeded
  · cases succeeded
  · next ordered placed =>
    obtain ⟨perm, _⟩ := dependencyOrder_eq_ok placed
    obtain ⟨result, rfl⟩ := Prod.ext_iff.mp succeeded
    obtain ⟨manager, up, rfl⟩ := map_eq_ok.mp result
    refine ⟨?_, fun provider member => perm.subset member⟩
    exact Provider.runPhases_keeps (fun provider member => kept provider (perm.subset member))
      before (Prod.ext up rfl)

end Telemetry.Module

namespace Telemetry.Collector

open Telemetry.Module Storage

-----------------------------------------------------------------------------------------
-- What the hooks of a collector do to its tables
-----------------------------------------------------------------------------------------

/-- A storage module is there with all tables of a collector, each set up under its own name. -/
def HoldsTables (storage : Option StorageState) : Prop :=
  ∃ state, storage = some state ∧ state.archive.IsSound ∧ state.archive.HasAllTables

namespace SiteM

variable {α β : Type}

/-- An action keeps the tables of a site, and its results have a property. -/
def KeepsTables (action : SiteM α) (Q : α → Prop) : Prop :=
  ∀ site, HoldsTables site.storage →
    HoldsTables (action site).2.storage ∧ ∀ value, (action site).1 = .ok value → Q value

namespace KeepsTables

theorem bind {action : SiteM α} {Q : α → Prop} {next : α → SiteM β} {R : β → Prop}
    (first : KeepsTables action Q) (later : ∀ value, Q value → KeepsTables (next value) R)
    : KeepsTables (action >>= next) R := by
  intro site holds
  obtain ⟨kept, result⟩ := first site holds
  change HoldsTables (ExceptT.bindCont next (action site).1 (action site).2).2.storage ∧
    ∀ value, (ExceptT.bindCont next (action site).1 (action site).2).1 = .ok value → R value
  cases outcome : (action site).1 with
  | error error => exact ⟨kept, nofun⟩
  | ok value => exact later value (result value outcome) _ kept

theorem pure (value : α) {Q : α → Prop} (holds : Q value)
    : KeepsTables (Pure.pure value) Q := by
  refine fun site kept => ⟨kept, fun other same => ?_⟩
  cases same
  exact holds

theorem lift (result : Except Error α) : KeepsTables (liftM result) fun _ => True := by
  cases result <;> exact fun _ kept => ⟨kept, fun _ _ => trivial⟩

theorem throw (error : Error) {Q : α → Prop} : KeepsTables (throw error) Q :=
  fun _ kept => ⟨kept, nofun⟩

theorem get : KeepsTables get fun site => HoldsTables site.storage := by
  refine fun site kept => ⟨kept, fun value same => ?_⟩
  cases same
  exact kept

theorem set {site : Site} (holds : HoldsTables site.storage)
    : KeepsTables (set site) fun _ => True :=
  fun _ _ => ⟨holds, fun _ _ => trivial⟩

theorem onNetwork (action : Cluster.Network → Except Error Cluster.Network)
    : KeepsTables (SiteM.onNetwork action) fun _ => True :=
  .bind .get fun _ holds => .bind (.lift _) fun _ _ => .set holds

theorem storage : KeepsTables SiteM.storage fun state =>
    state.archive.IsSound ∧ state.archive.HasAllTables := by
  refine .bind .get fun site holds => ?_
  obtain ⟨state, found, complete⟩ := holds
  rw [found]
  exact .pure _ complete

theorem setStorage {state : StorageState} (sound : state.archive.IsSound)
    (complete : state.archive.HasAllTables)
    : KeepsTables (SiteM.setStorage state) fun _ => True :=
  fun _ _ => ⟨⟨state, rfl, sound, complete⟩, fun _ _ => trivial⟩

end KeepsTables

end SiteM

/-- Starting the storage module changes the store of the tables, but no table, whether it succeeds
or not.
-/
theorem keepsTables_startStorage (member instanceId : String) (settings : Settings.StorageSettings)
    (manager : Manager Service)
    : (startStorage member instanceId settings manager).KeepsTables fun _ => True := by
  unfold startStorage
  refine .bind .storage fun storage ⟨sound, complete⟩ => ?_
  refine .bind (.lift _) fun space _ => ?_
  dsimp only
  refine .bind (.lift _) fun _ _ => ?_
  refine .bind (.setStorage sound complete) fun _ _ => ?_
  refine .bind (.lift _) fun _ _ => ?_
  refine .bind (.onNetwork _) fun _ _ => ?_
  refine .bind (.lift _) fun _ _ => ?_
  refine .bind (.onNetwork _) fun _ _ => ?_
  split
  · exact .throw _
  · exact .setStorage sound complete

-----------------------------------------------------------------------------------------
-- Collectors that come up
-----------------------------------------------------------------------------------------

/-- A module that a collector may be started with. -/
inductive CollectorModule where
  | configuration (clusterName tableNamespace : String)
  | cluster (ttl : Duration)
  | storage (instanceId : String) (settings : Settings.StorageSettings)

def CollectorModule.provider (member : String) : CollectorModule → Provider Site Service
  | configuration clusterName tableNamespace => configurationProvider clusterName tableNamespace
  | cluster ttl => clusterProvider member ttl
  | storage instanceId settings => storageProvider member instanceId settings

/-- If the storage module has been prepared, it provides its services and holds all tables. -/
def IsBacked (manager : Manager Service) (storage : Option StorageState) : Prop :=
  ∀ loaded, manager.find? storageModule = some loaded →
    Registry.registerAll ⟨storageModule, ∅⟩ storageServices = .ok loaded.services
      ∧ HoldsTables storage

namespace IsBacked

variable {manager : Manager Service} {storage after : Option StorageState}

/-- Another module may be added as long as the tables stay. -/
theorem add (h : IsBacked manager storage) {loaded : LoadedModule Service}
    (other : loaded.name ≠ storageModule) (kept : HoldsTables storage → HoldsTables after)
    : IsBacked (manager.add loaded) after := by
  intro found same
  rcases manager.find?_add_eq_or loaded storageModule with before | ⟨_, named, _⟩
  · exact (h found (before.symm.trans same)).imp_right kept
  · exact absurd named other

/-- The storage module may be added with its services and tables. -/
theorem addStorage (h : IsBacked manager storage) {provider : String} {state : ModuleState}
    {services : Registry Service}
    (registered : Registry.registerAll ⟨storageModule, ∅⟩ storageServices = .ok services)
    (holds : HoldsTables after)
    : IsBacked (manager.add ⟨storageModule, provider, state, services⟩) after := by
  intro found same
  rcases manager.find?_add_eq_or ⟨storageModule, provider, state, services⟩ storageModule with
    before | ⟨_, _, here⟩
  · exact ⟨(h found (before.symm.trans same)).1, holds⟩
  · cases here.symm.trans same
    exact ⟨registered, holds⟩

theorem setState (h : IsBacked manager storage) (module : String) (state : ModuleState)
    (kept : HoldsTables storage → HoldsTables after)
    : IsBacked (manager.setState module state) after := by
  intro found same
  rw [Manager.find?_setState] at same
  obtain ⟨loaded, before, rfl⟩ := Option.map_eq_some_iff.mp same
  obtain ⟨registered, holds⟩ := h loaded before
  refine ⟨?_, kept holds⟩
  split <;> exact registered

end IsBacked

/-- Preparing the storage module registers its services and sets up all tables. -/
theorem prepareStorage_eq_ok {member : String} {settings : Settings.StorageSettings}
    {registry services : Registry Service} {site left : Site}
    (prepared : prepareStorage member settings registry site = (.ok services, left))
    : registry.registerAll storageServices = .ok services ∧ HoldsTables left.storage := by
  unfold prepareStorage at prepared
  cases registered : registry.registerAll storageServices with
  | error error =>
      rw [registered] at prepared
      cases prepared
  | ok provided =>
      rw [registered] at prepared
      cases prepared
      exact ⟨rfl, _, rfl, Archive.isSound_onStore _ _, Archive.hasAllTables_onStore _ _⟩

theorem storage_notifyStorage (member : String) (settings : Settings.StorageSettings) (site : Site)
    : (notifyStorage member settings site).2.storage = site.storage := by
  change (if (site.storage.bind (·.runtime)).isSome then _ else site : Site).storage = _
  split <;> rfl

namespace CollectorModule

variable (module : CollectorModule) (member : String) (manager : Manager Service)

/-- The modules beside the storage module leave the tables alone when they are prepared. -/
theorem prepare_cases {site left : Site} {services : Registry Service}
    (prepared : (module.provider member).prepare manager ⟨(module.provider member).module, ∅⟩ site
      = (.ok services, left))
    : (module.provider member).module ≠ storageModule ∧ left.storage = site.storage
      ∨ (module.provider member).module = storageModule
        ∧ Registry.registerAll ⟨storageModule, ∅⟩ storageServices = .ok services
        ∧ HoldsTables left.storage := by
  cases module with
  | configuration clusterName tableNamespace =>
      have other : configurationModule ≠ storageModule := by decide
      exact .inl ⟨other, (congrArg (·.2.storage) prepared).symm⟩
  | cluster ttl =>
      have other : clusterModule ≠ storageModule := by decide
      exact .inl ⟨other, (congrArg (·.2.storage) prepared).symm⟩
  | storage instanceId settings => exact .inr ⟨rfl, prepareStorage_eq_ok prepared⟩

/-- No module takes a table away when it is started, whether it succeeds or not. -/
theorem holdsTables_start {site : Site} (holds : HoldsTables site.storage)
    : HoldsTables ((module.provider member).start manager site).2.storage := by
  cases module with
  | configuration | cluster => exact holds
  | storage instanceId settings =>
      exact (keepsTables_startStorage member instanceId settings manager site holds).1

theorem storage_notify (site : Site)
    : ((module.provider member).notify manager site).2.storage = site.storage := by
  cases module with
  | configuration | cluster => rfl
  | storage instanceId settings => exact storage_notifyStorage member settings site

/-- Every hook of every module keeps a collector backed. -/
theorem keepsAt (hook : Hook)
    : hook.KeepsAt (fun manager site => IsBacked manager site.storage)
        (module.provider member) := by
  intro manager site next left backed stepped
  cases hook with
  | prepare =>
      obtain ⟨services, prepared, rfl⟩ := Provider.prepareStep_eq_ok stepped
      rcases module.prepare_cases member manager prepared with
        ⟨other, same⟩ | ⟨here, registered, holds⟩
      · rw [same]
        exact backed.add other id
      · rw [here]
        exact backed.addStorage registered holds
  | start =>
      obtain ⟨started, rfl⟩ := Provider.startStep_eq_ok stepped
      refine backed.setState _ _ fun holds => ?_
      have kept := module.holdsTables_start member manager holds
      rwa [started] at kept
  | notify =>
      obtain ⟨notified, rfl⟩ := Provider.notifyStep_eq_ok stepped
      have same := module.storage_notify member manager site
      rw [notified] at same
      refine backed.setState _ _ fun holds => ?_
      rwa [same]

end CollectorModule

-----------------------------------------------------------------------------------------
-- Deployments
-----------------------------------------------------------------------------------------

/-- What may happen to the collectors of a deployment. -/
inductive DeploymentStep where
  | start (name : String) (ownNetwork : Bool) (modules : List CollectorModule)
  | stop (name : String)
  | restart (name : String)
  | accept (name : String) (record : StreamRecord)
  | replay (name : String) (content : List UInt8)
  | cycle (name : String) (deadline : Duration → Deadline)
  | sweep (name : String) (now : Instant)
  | execute (name : String) (operations : List Operation)
  | deregister (name : String)
  | advance (elapsed : Duration) (now : Instant) (deadline : Duration → Deadline)
  | settle

namespace Deployment

/-- The deployment after an action of the collector of a name, if there is one. -/
def onCollector (deployment : Deployment) (name : String) (action : Instance → Deployment)
    : Deployment :=
  ((deployment.collectors.get? name).map action).getD deployment

def afterStep (deployment : Deployment) : DeploymentStep → Deployment
  | .start name ownNetwork modules =>
      (deployment.start name ownNetwork fun member => modules.map (·.provider member)).2
  | .stop name => deployment.stop name
  | .restart name => deployment.onCollector name fun collector =>
      ((deployment.restart name collector).map (·.2)).getD deployment
  | .accept name record => (accept name record deployment).2
  | .replay name content => (deployment.replay name content).2
  | .cycle name deadline => deployment.onCollector name fun collector =>
      (deployment.cycle name collector deadline).2
  | .sweep name now => deployment.onCollector name fun collector =>
      (deployment.sweep name collector now).2
  | .execute name operations => deployment.onCollector name fun collector =>
      (deployment.execute name collector operations).2
  | .deregister name => deployment.onCollector name fun collector =>
      (deployment.deregister collector).2
  | .advance elapsed now deadline => deployment.advance elapsed now deadline
  | .settle => deployment.settle

/-- The deployment after some steps, from one without collectors. -/
def afterSteps (steps : List DeploymentStep) : Deployment :=
  steps.foldl afterStep {}

end Deployment

/-- A collector runs modules that it may be started with, and is backed if the storage module is one
of them.
-/
structure Instance.IsSound (collector : Instance) : Prop where
  known : ∀ provider ∈ collector.running.providers,
    ∃ (module : CollectorModule) (member : String), provider = module.provider member
  backed : IsBacked collector.running.manager collector.storage

namespace Instance

/-- What runs over the tables belongs to the storage module. -/
theorem runtime_eq_ok {collector : Instance} {storage : StorageState} {runtime : Runtime}
    (found : collector.runtime = .ok (storage, runtime))
    : collector.storage = some storage := by
  obtain ⟨_, _, found⟩ := bind_eq_ok.mp found
  split at found
  · next state _ same =>
    cases found
    exact same
  · cases found

theorem storageBy_eq_ok {collector : Instance} {interface : Interface} {storage : StorageState}
    (found : collector.storageBy interface = .ok storage)
    : collector.storage = some storage := by
  obtain ⟨_, _, found⟩ := bind_eq_ok.mp found
  split at found
  · next same =>
    cases found
    exact same
  · cases found

end Instance

namespace Deployment

def IsSound (deployment : Deployment) : Prop :=
  ∀ name collector, deployment.collectors.get? name = some collector → collector.IsSound

namespace IsSound

variable {deployment : Deployment} {name : String} {collector : Instance}

/-- Networks, agenda and measurements do not matter. -/
theorem of_collectors (h : deployment.IsSound) {other : Deployment}
    (same : other.collectors = deployment.collectors)
    : other.IsSound := by
  intro name collector found
  exact h name collector (same ▸ found)

theorem insert (h : deployment.IsSound) (sound : collector.IsSound) {other : Deployment}
    (same : other.collectors = deployment.collectors.insert name collector)
    : other.IsSound := by
  intro key found bound
  rw [same, KeyMap.get?_insert] at bound
  split at bound
  · cases bound
    exact sound
  · exact h key found bound

theorem stop (h : deployment.IsSound) (name : String) : (deployment.stop name).IsSound := by
  unfold Deployment.stop
  split
  · exact h
  · intro key found bound
    rw [KeyMap.get?_erase] at bound
    split at bound
    · cases bound
    · exact h key found bound

/-- A collector that comes up is sound, and one that does not leaves the others alone. -/
theorem start (h : deployment.IsSound) (name : String) (ownNetwork : Bool)
    (modules : List CollectorModule)
    : (deployment.afterStep (.start name ownNetwork modules)).IsSound := by
  unfold afterStep Deployment.start
  dsimp only
  split
  · next running left up =>
    have kept : ∀ provider ∈ modules.map (·.provider (toString deployment.started)),
        ∀ hook : Hook, hook.KeepsAt (fun manager site => IsBacked manager site.storage)
          provider := by
      intro provider member hook
      obtain ⟨module, _, rfl⟩ := List.mem_map.mp member
      exact module.keepsAt _ hook
    have none : IsBacked {} (none : Option StorageState) := fun _ found => nomatch found
    obtain ⟨backed, providers⟩ := bootstrap_keeps kept none up
    refine IsSound.insert ?_ ?_ rfl
    · refine IsSound.stop ?_ name
      exact h.of_collectors rfl
    refine ⟨fun provider member => ?_, backed⟩
    obtain ⟨module, _, rfl⟩ := List.mem_map.mp (providers provider member)
    exact ⟨module, _, rfl⟩
  · exact h.of_collectors rfl

/-- A step of the tables of a collector leaves it sound. -/
theorem withArchive (h : deployment.IsSound)
    (found : deployment.collectors.get? name = some collector) {storage : StorageState}
    (kept : collector.storage = some storage) (step : ArchiveStep)
    (measurements : List Measurement)
    : (deployment.withArchive name collector (storage.archive.step step) measurements).IsSound := by
  obtain ⟨known, backed⟩ := h name collector found
  refine h.insert ?_ rfl
  refine ⟨known, fun loaded prepared => ?_⟩
  obtain ⟨registered, state, same, sound, complete⟩ := backed loaded prepared
  cases kept.symm.trans same
  refine ⟨registered, { storage with archive := storage.archive.step step }, ?_, sound.step step,
    complete.step step⟩
  rw [kept]
  rfl

/-- A record that a collector takes is a step of its tables. -/
theorem accept (h : deployment.IsSound) (name : String) (record : StreamRecord)
    : (Deployment.accept name record deployment).2.IsSound := by
  unfold Deployment.accept
  split
  · exact h
  · next collector found =>
    split
    · next left dispatched =>
      unfold dispatch at dispatched
      obtain ⟨table, _, staged⟩ := bind_eq_ok.mp dispatched
      cases kept : collector.storage with
      | none =>
          rw [kept] at staged
          cases staged
      | some storage =>
          rw [kept] at staged
          obtain ⟨answer, ingested, made⟩ := bind_eq_ok.mp staged
          cases made
          rw [← Archive.step_of_ingest ingested]
          exact h.withArchive found kept _ _
    · exact h

theorem replay (h : deployment.IsSound) (name : String) (content : List UInt8)
    : (deployment.replay name content).2.IsSound :=
  Replay.feed_keeps (fun record _ sound => sound.accept name record) _ h 0

theorem cycle (h : deployment.IsSound) (found : deployment.collectors.get? name = some collector)
    (deadline : Duration → Deadline)
    : (deployment.cycle name collector deadline).2.IsSound := by
  unfold Deployment.cycle
  split
  · exact h
  · next storage runtime running =>
    exact h.withArchive found (Instance.runtime_eq_ok running)
      (.cycle runtime.flushTimeout (deadline runtime.flushTimeout)) _

theorem sweep (h : deployment.IsSound) (found : deployment.collectors.get? name = some collector)
    (now : Instant)
    : (deployment.sweep name collector now).2.IsSound := by
  unfold Deployment.sweep
  split
  · exact h
  · next storage runtime running =>
    exact h.withArchive found (Instance.runtime_eq_ok running)
      (.sweep (deployment.view collector) runtime.registration runtime.ttlDays now) _

theorem execute (h : deployment.IsSound)
    (found : deployment.collectors.get? name = some collector) (operations : List Operation)
    : (deployment.execute name collector operations).2.IsSound := by
  unfold Deployment.execute
  split
  · exact h
  · next storage running =>
    exact h.withArchive found (Instance.storageBy_eq_ok running) (.execute operations) _

theorem deregister (h : deployment.IsSound) (collector : Instance)
    : (deployment.deregister collector).2.IsSound := by
  unfold Deployment.deregister
  dsimp only
  split
  · exact h
  · exact h.of_collectors rfl

/-- Starting the storage module once more keeps the tables, whether it succeeds or not. -/
theorem restart (h : deployment.IsSound)
    (found : deployment.collectors.get? name = some collector)
    : (((deployment.restart name collector).map (·.2)).getD deployment).IsSound := by
  unfold Deployment.restart
  cases sought : collector.running.providers.find? (·.module = storageModule) with
  | none => exact h
  | some provider =>
      obtain ⟨known, backed⟩ := h name collector found
      obtain ⟨module, member, rfl⟩ := known provider (List.mem_of_find?_eq_some sought)
      refine h.insert ?_ rfl
      refine ⟨known, fun loaded prepared => ?_⟩
      exact (backed loaded prepared).imp_right (module.holdsTables_start member _)

/-- A recurring task is a cycle or a sweep of a collector. -/
theorem run (h : deployment.IsSound) (now : Instant) (deadline : Duration → Deadline)
    (chore : Chore)
    : (Deployment.run now deadline deployment chore).IsSound := by
  unfold Deployment.run
  split
  · exact h
  · next name collector first =>
    have found := KeyMap.get?_eq_some_iff.mpr (List.mem_of_find?_eq_some first)
    cases chore with
    | flush => exact h.cycle found deadline
    | sweep => exact h.sweep found now

theorem advance (h : deployment.IsSound) (elapsed : Duration) (now : Instant)
    (deadline : Duration → Deadline)
    : (deployment.advance elapsed now deadline).IsSound := by
  unfold Deployment.advance
  dsimp only
  refine List.foldlRecOn _ _ ?_ fun left sound chore _ => sound.run now deadline chore
  exact h.of_collectors rfl

/-- Every step leaves all collectors sound. -/
theorem step (h : deployment.IsSound) (step : DeploymentStep)
    : (deployment.afterStep step).IsSound := by
  have onCollector {name : String} {action : Instance → Deployment}
      (sound : ∀ collector, deployment.collectors.get? name = some collector →
        (action collector).IsSound)
      : (deployment.onCollector name action).IsSound := by
    unfold Deployment.onCollector
    cases found : deployment.collectors.get? name with
    | none => exact h
    | some collector => exact sound collector found
  cases step with
  | start name ownNetwork modules => exact h.start name ownNetwork modules
  | stop name => exact h.stop name
  | restart name => exact onCollector fun collector found => h.restart found
  | accept name record => exact h.accept name record
  | replay name content => exact h.replay name content
  | cycle name deadline => exact onCollector fun collector found => h.cycle found deadline
  | sweep name now => exact onCollector fun collector found => h.sweep found now
  | execute name operations => exact onCollector fun collector found => h.execute found operations
  | deregister name => exact onCollector fun collector _ => h.deregister collector
  | advance elapsed now deadline => exact h.advance elapsed now deadline
  | settle => exact h.of_collectors rfl

end IsSound

/-- All collectors are sound whatever happened, by induction over the steps. -/
theorem isSound_afterSteps (steps : List DeploymentStep) : (afterSteps steps).IsSound := by
  have none : IsSound {} := fun _ _ found => nomatch found
  exact List.foldlRecOn steps afterStep none fun _ sound step _ => sound.step step

end Deployment

end Telemetry.Collector
