import Telemetry.Proofs.Cluster.Elections
import Telemetry.Proofs.Cluster.ListeningSteps

/-! Views of listeners that have caught up. They are the canonical lists of the stored members of
their modules, whatever happened between subscriptions, readings and publications, so listeners that
have caught up agree on the members and elect one of them.
-/

namespace Telemetry.Cluster

-----------------------------------------------------------------------------------------
-- Attaching and settling
-----------------------------------------------------------------------------------------

/-- A channel yields nothing exactly if nothing is unread. -/
theorem channel_read?_eq_none_iff {α : Type} {channel : Metadata.Channel α} {position : Nat}
    : channel.read? position = none ↔ channel.unread position = 0 := by
  unfold Metadata.Channel.read?
  dsimp only
  split
  next nothing => simp [nothing]
  next some =>
    split
    · simp [some]
    · simp only [Option.map_eq_none_iff, List.getElem?_eq_none_iff]
      omega

namespace Listening

/-- A step of a task leaves it with its listener and its service. -/
theorem listener_of_step? {service : NamingService} {store : Metadata.Store} {task next : Listening}
    {view changed : View} (h : step? service store task view = some (next, changed))
    : next.listener = task.listener ∧ next.service = task.service := by
  unfold step? at h
  split at h
  · obtain ⟨_, _, eq⟩ := Option.map_eq_some_iff.mp h
    cases eq
    exact ⟨rfl, rfl⟩
  · split at h <;> cases h <;> exact ⟨rfl, rfl⟩
  · cases h
    exact ⟨rfl, rfl⟩

/-- A task takes no step exactly if it waits and has nothing to read. -/
theorem step?_eq_none_iff {service : NamingService} {store : Metadata.Store} {task : Listening}
    {view : View}
    : step? service store task view = none
      ↔ task.phase = .waiting ∧ store.unread task.stream = 0 := by
  unfold step?
  split
  next phase =>
    simp [phase, Metadata.Store.read?, Metadata.Store.unread, channel_read?_eq_none_iff]
  next phase => split <;> simp [phase]
  next phase => simp [phase]

theorem quiet_settle (service : NamingService) (store : Metadata.Store) (task : Listening)
    (view : View)
    : (settle service store task view).1.listener = task.listener
      ∧ (settle service store task view).1.phase = .waiting
      ∧ store.unread (settle service store task view).1.stream = 0 := by
  fun_induction settle service store task view with
  | case1 task view next changed step ih => exact (listener_of_step? step).1 ▸ ih
  | case2 task view stuck => exact ⟨rfl, step?_eq_none_iff.mp stuck⟩

end Listening

namespace Network

def withTasks (network : Network) (tasks : List Listening) : Network :=
  { network with tasks }

/-- Settling one task is a run of its steps. -/
theorem Reachable.settle_listening {network : Network} {before after : List Listening}
    {task : Listening} {service : NamingService} {view : View}
    (h : (network.withTasks (before ++ task :: after)).Reachable)
    (served : network.services.get? task.service = some service)
    (known : network.listeners.get? task.listener = some view)
    : Reachable { network with
        tasks := before ++ (task.settle service network.store view).1 :: after
        listeners := network.listeners.insert task.listener
          (task.settle service network.store view).2 } := by
  obtain ⟨store, clock, services, listeners, all, agenda⟩ := network
  dsimp only at *
  fun_induction Listening.settle service store task view generalizing listeners with
  | case1 task view next changed step ih =>
      obtain ⟨listener, names⟩ := Listening.listener_of_step? step
      have later := h.step (.listen rfl served known step)
      have held : (listeners.insert task.listener changed).get? next.listener = some changed := by
        rw [listener, KeyMap.get?_insert, if_pos rfl]
      have final := ih (listeners.insert task.listener changed) later (names ▸ served) held
      rwa [listener, KeyMap.insert_insert] at final
  | case2 task view stuck =>
      rw [KeyMap.insert_of_get? known]
      exact h

/-- Settling a task in its place is a run of steps, and so is leaving it alone. -/
theorem Reachable.settleTask {network : Network} {before after : List Listening}
    {task : Listening} (h : (network.withTasks (before ++ task :: after)).Reachable)
    : ((network.settleTask task).1.withTasks
        (before ++ (network.settleTask task).2 :: after)).Reachable := by
  unfold Network.settleTask
  cases served : network.services.get? task.service with
  | none => exact h
  | some service =>
      cases known : network.listeners.get? task.listener with
      | none => exact h
      | some view =>
          have run := h.settle_listening served known
          have listener := (Listening.quiet_settle service network.store task view).1
          cases settled : task.settle service network.store view
          rw [settled] at run listener
          rw [← listener] at run
          simpa only [settled, withTasks] using run

/-- Settling all tasks is a run of steps, by induction over the tasks that are left. -/
theorem Reachable.settleTasks {network : Network} (before : List Listening) {tasks : List Listening}
    (h : (network.withTasks (before ++ tasks)).Reachable)
    : ((network.settleTasks tasks).1.withTasks
        (before ++ (network.settleTasks tasks).2)).Reachable := by
  induction tasks generalizing network before with
  | nil => exact h
  | cons task rest ih =>
      have first := h.settleTask
      rw [List.append_cons] at first
      have later := ih _ first
      rwa [← List.append_cons] at later

theorem Reachable.settle {network : Network} (h : network.Reachable) : network.settle.Reachable :=
  settleTasks [] h

/-- Attaching a listener is a subscription followed by the first reading and its publication. -/
theorem Reachable.attach {network next : Network} (h : network.Reachable) {name listener : String}
    (done : network.attach name listener = .ok next)
    : next.Reachable := by
  obtain ⟨service, served, rest⟩ := bind_eq_ok.mp done
  dsimp only at rest
  split at rest
  · cases rest
  next view known =>
    obtain ⟨⟨stream, store⟩, watched, rest⟩ := bind_eq_ok.mp rest
    obtain ⟨peers, read, eq⟩ := bind_eq_ok.mp rest
    cases eq
    have subscribed : network.subscribe name listener = .ok { network with
        store, tasks := network.tasks ++ [⟨listener, name, view.module, stream, .reading⟩] } := by
      simp only [subscribe, served, known, watched, bind, Except.bind, pure, Except.pure]
    have reading := h.step (.subscribe subscribed)
    have reads := reading.step (.listen rfl (service_eq_ok served) known (by
      simp only [Listening.step?, read]
      rfl))
    have held : (network.listeners.insert listener view).get? listener = some view := by
      rw [KeyMap.get?_insert, if_pos rfl]
    have published := reads.step (.listen rfl (service_eq_ok served) held rfl)
    rwa [KeyMap.insert_insert] at published

-----------------------------------------------------------------------------------------
-- Agreement
-----------------------------------------------------------------------------------------

theorem Reachable.expire_isOk {network : Network} (h : network.Reachable)
    : ∃ count next, network.expire = .ok (count, next) := by
  obtain ⟨count, store, run, _⟩ := Metadata.Store.expire_isOk h.consistent.keyed network.clock
  exact ⟨count, { network with store }, by simp only [expire, run, bind, Except.bind]; rfl⟩

/-- The view of a listener that has caught up is the canonical list of the stored members. -/
theorem Idle.canonicalForm {network : Network} {listener : String} {view : View}
    (idle : network.Idle listener view) (h : network.Reachable)
    : CanonicalForm (Registered network.store view.module) view.peers := by
  obtain ⟨peers, stored, shown⟩ := h.consistent.current listener view idle
  obtain ⟨found, read, registered⟩ := storedPeers_eq_ok network.store view.module
  cases stored.symm.trans read
  have form := canonicalForm_canonical peers
  refine shown ▸ ⟨form.ascending, ?_, ?_⟩
  · exact fun peer member => (registered peer).mp (form.announced_of_mem peer member)
  · exact fun peer announced => form.exists_least peer ((registered peer).mpr announced)

/-- Listeners of a module that have caught up see the canonical list of its stored members, whatever
changes and readings came before and in whatever order. So they see the same members, no two
different members are elected by them, and if any member is stored they elect the least one alone.
-/
theorem idle_listeners_agree {network : Network} (reachable : network.Reachable)
    {first second : String} {view other : View} (idle : network.Idle first view)
    (idleOther : network.Idle second other) (module : other.module = view.module)
    : CanonicalForm (Registered network.store view.module) view.peers
      ∧ other = view
      ∧ (∀ a b, view.isElected a = true → other.isElected b = true → a.sameMember b = true)
      ∧ ((∃ registration, Registered network.store view.module registration) →
          ∃ least, Registered network.store view.module least
            ∧ (∀ registration, Registered network.store view.module registration →
                least.le registration = true)
            ∧ view.elected? = some least
            ∧ ∀ registration, view.isElected registration = true
                ↔ least.sameMember registration = true) := by
  have form := idle.canonicalForm reachable
  have formOther := idleOther.canonicalForm reachable
  have same : other = view := by
    rw [module] at formOther
    have peers := formOther.unique form
    cases view
    cases other
    simp_all
  subst same
  refine ⟨form, rfl, ?_, ?_⟩
  · intro a b electedA electedB
    obtain ⟨member, elected, sameA⟩ := View.isElected_iff.mp electedA
    obtain ⟨_, again, sameB⟩ := View.isElected_iff.mp electedB
    cases elected.symm.trans again
    exact Registration.sameMember_trans (Registration.sameMember_comm ▸ sameA) sameB
  · rintro ⟨registration, registered⟩
    obtain ⟨least, head, stored, below⟩ := form.head?_eq_some registered
    refine ⟨least, stored, below, head, fun registration => ?_⟩
    rw [View.isElected_iff, View.elected?, head]
    simp

/-- Two listeners, of which the first one hears of the second member after its first reading. -/
theorem idle_listeners_agree_after_registration
    : ∃ (network : Network) (view other : View), network.Reachable ∧ network.Idle "first" view
      ∧ network.Idle "second" other ∧ other.module = view.module
      ∧ Registered network.store view.module ⟨"storage", "memory", "b", 0⟩
      ∧ other = view ∧ ∃ least, view.elected? = some least := by
  have owns : ({} : Network).OwnsListeners "registry" := by
    intro task member
    cases member
  have served := Reachable.start.step (@Step.addService _ "registry" { ttl := 60000 } owns rfl)
  have listening := served.step (.addListener "first" "storage")
  have ready := listening.step (.addListener "second" "storage")
  have stored := ready.step (@Step.register _ "registry" ⟨"storage", "memory", "b", 0⟩ _ rfl)
  have attached := @Reachable.attach _ _ stored "registry" "first" rfl
  have changed := attached.step (@Step.register _ "registry" ⟨"storage", "memory", "a", 0⟩ _ rfl)
  have both := @Reachable.attach _ _ changed "registry" "second" rfl
  -- The first listener takes the change, reads the members and publishes them.
  have told := both.step (@Step.listen _ [] _ _ _ _ _ _ rfl rfl rfl rfl)
  have read := told.step (@Step.listen _ [] _ _ _ _ _ _ rfl rfl rfl rfl)
  have published := read.step (@Step.listen _ [] _ _ _ _ _ _ rfl rfl rfl rfl)
  obtain ⟨network, view, other, reachable, first, second, module, registered⟩ :
      ∃ (network : Network) (view other : View), network.Reachable
        ∧ network.Idle "first" view ∧ network.Idle "second" other ∧ other.module = view.module
        ∧ Registered network.store view.module ⟨"storage", "memory", "b", 0⟩ := by
    refine ⟨_, _, _, published, ⟨rfl, ⟨_, .head _, rfl⟩, ?_⟩,
      ⟨rfl, ⟨_, .tail _ (.head _), rfl⟩, ?_⟩, rfl, ⟨"/cluster/storage/b_0", _, rfl, rfl, ?_⟩⟩
    · decide +kernel
    · decide +kernel
    · decide +kernel
  obtain ⟨_, same, _, elects⟩ := idle_listeners_agree reachable first second module
  obtain ⟨least, _, _, elected, _⟩ := elects ⟨_, registered⟩
  exact ⟨network, view, other, reachable, first, second, module, registered, same, least, elected⟩

end Network

end Telemetry.Cluster
