import Telemetry.Proofs.Cluster.CanonicalMembers
import Telemetry.Proofs.Metadata.ChangeNotices
import Telemetry.Cluster.Network

/-! The steps that a network can take in any order: changes of the metadata store, and single steps
of the listening tasks. What keeps the views right is that a view is current unless one of the tasks
of its listener still has something to read, to look up or to publish.
-/

namespace Telemetry.Cluster

open Metadata (Store)

-----------------------------------------------------------------------------------------
-- Stored registrations
-----------------------------------------------------------------------------------------

/-- A registration can be read from the text of a value that the store holds below the path of a
module.
-/
def Registered (store : Store) (module : String) (registration : Registration) : Prop :=
  ∃ text value, Metadata.startsWith text (modulePath module) = true
    ∧ store.get text = .ok (some value) ∧ Registration.read? value.json = some registration

/-- The path of a module goes past its third slash, whatever the name of the module is. -/
theorem slashes_modulePath (module : String) : 2 < (modulePath module).toList.count '/' := by
  have parts : (modulePath module).toList = "/cluster/".toList ++ (module.toList ++ ['/']) := by
    simp [modulePath]
  have front : "/cluster/".toList.count '/' = 2 := rfl
  rw [parts, List.count_append, List.count_append, front, List.count_singleton_self]
  omega

/-- The members of a module are always found, and they are the stored registrations. -/
theorem storedPeers_eq_ok (store : Store) (module : String)
    : ∃ peers, storedPeers store module = .ok peers
      ∧ ∀ registration, registration ∈ peers ↔ Registered store module registration := by
  obtain ⟨entries, found, listed⟩ := @Store.bulk_eq_ok store _ (slashes_modulePath module)
  refine ⟨_, by simp only [storedPeers, found, bind, Except.bind]; rfl, ?_⟩
  intro registration
  rw [(inOrder_perm _).mem_iff, List.mem_filterMap]
  constructor
  · rintro ⟨⟨text, written⟩, member, read⟩
    obtain ⟨below, kept, got, rfl⟩ := (listed text written).mp member
    exact ⟨text, kept, below, got, read⟩
  · rintro ⟨text, kept, below, got, read⟩
    exact ⟨(text, kept.json), (listed text _).mpr ⟨below, kept, got, rfl⟩, read⟩

theorem storedPeers_congr {store other : Store} {module : String}
    (h : store.bulk (modulePath module) = other.bulk (modulePath module))
    : storedPeers store module = storedPeers other module := by
  rw [storedPeers, storedPeers, h]

-----------------------------------------------------------------------------------------
-- Steps
-----------------------------------------------------------------------------------------

namespace Network

/-- Subscribes a listener to the changes of its module. Its task reads the members next, so changes
can fall between the subscription and that first reading.
-/
def subscribe (network : Network) (name listener : String) : Except Error Network := do
  let service ← network.service name
  match network.listeners.get? listener with
  | none => throw (.serviceNotProvided "cluster" listener)
  | some view =>
      let watched := network.store.watch (modulePath view.module)
      let (stream, store) ← service.call .watch (.ok watched)
      let task : Listening := ⟨listener, name, view.module, stream, .reading⟩
      return { network with store, tasks := network.tasks ++ [task] }

/-- The listeners that a service listens for are attached through no other service. -/
def OwnsListeners (network : Network) (name : String) : Prop :=
  ∀ task ∈ network.tasks, ∀ other ∈ network.tasks,
    task.listener = other.listener → task.service = name → other.service = name

/-- One atomic step of a network whose services refuse nothing. -/
inductive Step (network : Network) : Network → Prop where
  | put {text : String} {value : Value} {store : Store}
      (done : network.store.put text value = .ok store)
      : Step network { network with store }
  | putFor {now : Metadata.Time} {lifetime : Duration} {text : String} {value : Value}
      {store : Store} (done : network.store.putFor now lifetime text value = .ok store)
      : Step network { network with store }
  | delete {text : String} {store : Store} (done : network.store.delete text = .ok store)
      : Step network { network with store }
  | expire {count : Nat} {next : Network} (done : network.expire = .ok (count, next))
      : Step network next
  | wait (clock : Metadata.Time) (agenda : Agenda Chore)
      : Step network { network with clock, agenda }
  | register {name : String} {registration : Registration} {next : Network}
      (done : network.register name registration = .ok next)
      : Step network next
  | deregister (name : String) (registration : Registration)
      : Step network (network.deregister name registration).2
  | renew (name path : String) : Step network (network.renew name path)
  | addService {name : String} {service : NamingService} (owns : network.OwnsListeners name)
      (refuses : service.refused = [])
      : Step network (network.addService name service)
  | dropService {name : String} (owns : network.OwnsListeners name)
      : Step network (network.dropService name)
  | addListener (name module : String) : Step network (network.addListener name module)
  | dropListener (name : String) : Step network (network.dropListener name)
  | subscribe {name listener : String} {next : Network}
      (done : network.subscribe name listener = .ok next)
      : Step network next
  | listen {before after : List Listening} {task next : Listening} {service : NamingService}
      {view changed : View} (tasks : network.tasks = before ++ task :: after)
      (served : network.services.get? task.service = some service)
      (attached : network.listeners.get? task.listener = some view)
      (step : task.step? service network.store view = some (next, changed))
      : Step network { network with
          tasks := before ++ next :: after
          listeners := network.listeners.insert task.listener changed }

/-- The networks that steps lead to from the one without services and listeners. -/
inductive Reachable : Network → Prop where
  | start : Reachable {}
  | step {network next : Network} (earlier : Reachable network) (step : network.Step next)
      : Reachable next

/-- All tasks of a listener wait and have nothing to read. -/
def Quiet (network : Network) (listener : String) : Prop :=
  ∀ task ∈ network.tasks, task.listener = listener →
    task.phase = .waiting ∧ network.store.unread task.stream = 0

instance (network : Network) (listener : String) : Decidable (network.Quiet listener) :=
  inferInstanceAs <| Decidable <| ∀ task ∈ network.tasks, task.listener = listener →
    task.phase = .waiting ∧ network.store.unread task.stream = 0

/-- A listener has tasks, and all of them wait with nothing to read. -/
structure Idle (network : Network) (listener : String) (view : View) : Prop where
  known : network.listeners.get? listener = some view
  attached : ∃ task ∈ network.tasks, task.listener = listener
  quiet : network.Quiet listener

/-- A view shows the stored members of its module. -/
def Current (store : Store) (view : View) : Prop :=
  ∃ peers, storedPeers store view.module = .ok peers ∧ view.peers = canonical peers

/-- A task listens to its module through an open channel that it has not read ahead of, and what it
is about to publish is what is stored, unless there is more to read.
-/
structure Subscribed (network : Network) (task : Listening) : Prop where
  below : task.stream.below = modulePath task.module
  opened : ∃ channel, network.store.channels.get? (modulePath task.module) = some channel
    ∧ task.stream.position ≤ channel.sent
  known : ∃ view, network.listeners.get? task.listener = some view ∧ view.module = task.module
  fresh : ∀ peers, task.phase = .publishing peers → network.store.unread task.stream = 0 →
    storedPeers network.store task.module = .ok peers

/-- What every step preserves. -/
structure Consistent (network : Network) : Prop where
  refuse_nothing : ∀ name service, network.services.get? name = some service →
    service.refused = []
  keyed : network.store.DeadlinesKeyed
  subscribed : ∀ task ∈ network.tasks, network.Subscribed task
  current : ∀ listener view, network.Idle listener view → Current network.store view

-----------------------------------------------------------------------------------------
-- Changes of the store
-----------------------------------------------------------------------------------------

section

variable {network next : Network} {task : Listening}

/-- A listening task with nothing to read after a change of the store had nothing to read before,
and the members of its module have stayed the same.
-/
theorem Subscribed.quiet_of_heard {store : Store} (h : network.Subscribed task)
    (heard : network.store.Heard store) (quiet : store.unread task.stream = 0)
    : network.store.unread task.stream = 0
      ∧ storedPeers store task.module = storedPeers network.store task.module := by
  obtain ⟨channel, found, position⟩ := h.opened
  obtain ⟨later, foundLater, sent, silent⟩ := heard _ channel found
  simp only [Store.unread, Store.channel, Metadata.Channel.unread, h.below, found, foundLater,
    Option.getD_some] at quiet ⊢
  refine ⟨by omega, storedPeers_congr (silent ?_)⟩
  omega

theorem Subscribed.of_heard (h : network.Subscribed task)
    (heard : network.store.Heard next.store) (listeners : next.listeners = network.listeners)
    : next.Subscribed task := by
  refine ⟨h.below, ?_, listeners ▸ h.known, ?_⟩
  · obtain ⟨channel, found, position⟩ := h.opened
    obtain ⟨later, foundLater, sent, _⟩ := heard _ channel found
    exact ⟨later, foundLater, Nat.le_trans position sent⟩
  · intro peers phase quiet
    obtain ⟨before, same⟩ := h.quiet_of_heard heard quiet
    exact same.trans (h.fresh peers phase before)

/-- A change of the store that can be heard keeps a network consistent. -/
theorem Consistent.change (h : network.Consistent) (heard : network.store.Heard next.store)
    (keyed : next.store.DeadlinesKeyed) (tasks : next.tasks = network.tasks)
    (listeners : next.listeners = network.listeners)
    (services : ∀ name service, next.services.get? name = some service → service.refused = [])
    : next.Consistent := by
  refine ⟨services, keyed, ?_, ?_⟩
  · intro task member
    exact (h.subscribed task (tasks ▸ member)).of_heard heard listeners
  · intro listener view idle
    have quiet : network.Quiet listener := by
      intro task member same
      obtain ⟨waiting, nothing⟩ := idle.quiet task (tasks ▸ member) same
      exact ⟨waiting, ((h.subscribed task member).quiet_of_heard heard nothing).1⟩
    obtain ⟨task, member, same⟩ := idle.attached
    have nothing := (idle.quiet task member same).2
    rw [tasks] at member
    have subscribed := h.subscribed task member
    obtain ⟨peers, stored, shown⟩ :=
      h.current listener view ⟨listeners ▸ idle.known, ⟨task, member, same⟩, quiet⟩
    obtain ⟨held, known, module⟩ := subscribed.known
    have held_eq : held = view := by
      have found := idle.known
      rw [listeners, ← same, known] at found
      exact Option.some.inj found
    refine ⟨peers, ?_, shown⟩
    rw [← held_eq, module, (subscribed.quiet_of_heard heard nothing).2, ← module, held_eq, stored]

end

-----------------------------------------------------------------------------------------
-- Changes of the tasks
-----------------------------------------------------------------------------------------

section

variable {network next : Network}

/-- Dropping all tasks of some listeners keeps a network consistent, for the views of these
listeners are owed nothing any more.
-/
theorem Consistent.detach (h : network.Consistent) {keep : Listening → Bool}
    (store : next.store = network.store) (tasks : next.tasks = network.tasks.filter keep)
    (whole : ∀ task ∈ network.tasks, ∀ other ∈ network.tasks, task.listener = other.listener →
      keep task = true → keep other = true)
    (listeners : ∀ task ∈ network.tasks, keep task = true →
      next.listeners.get? task.listener = network.listeners.get? task.listener)
    (services : ∀ name service, next.services.get? name = some service → service.refused = [])
    : next.Consistent := by
  refine ⟨services, store ▸ h.keyed, ?_, ?_⟩
  · intro task member
    obtain ⟨listed, kept⟩ := List.mem_filter.mp (tasks ▸ member)
    have subscribed := h.subscribed task listed
    refine ⟨subscribed.below, store ▸ subscribed.opened, ?_, store ▸ subscribed.fresh⟩
    exact listeners task listed kept ▸ subscribed.known
  · intro listener view idle
    obtain ⟨task, member, same⟩ := idle.attached
    obtain ⟨listed, kept⟩ := List.mem_filter.mp (tasks ▸ member)
    have known : network.listeners.get? listener = some view := by
      rw [← same, ← listeners task listed kept, same, idle.known]
    rw [store]
    refine h.current listener view ⟨known, ⟨task, listed, same⟩, ?_⟩
    intro other listedOther sameOther
    have keptOther := whole task listed other listedOther (same.trans sameOther.symm) kept
    have remains : other ∈ next.tasks := tasks ▸ List.mem_filter.mpr ⟨listedOther, keptOther⟩
    exact store ▸ idle.quiet other remains sameOther

/-- A new task that is not waiting yet keeps a network consistent. -/
theorem Consistent.addTask (h : network.Consistent) {task : Listening}
    (subscribed : network.Subscribed task) (busy : task.phase ≠ .waiting)
    : Consistent { network with tasks := network.tasks ++ [task] } := by
  refine ⟨h.refuse_nothing, h.keyed, ?_, ?_⟩
  · intro other member
    rcases List.mem_append.mp member with old | new
    · obtain ⟨below, opened, known, fresh⟩ := h.subscribed other old
      exact ⟨below, opened, known, fresh⟩
    · obtain ⟨below, opened, known, fresh⟩ := List.mem_singleton.mp new ▸ subscribed
      exact ⟨below, opened, known, fresh⟩
  · intro listener view idle
    have quiet : network.Quiet listener := fun other member =>
      idle.quiet other (List.mem_append_left _ member)
    obtain ⟨other, member, same⟩ := idle.attached
    rcases List.mem_append.mp member with old | new
    · exact h.current listener view ⟨idle.known, ⟨other, old, same⟩, quiet⟩
    · have waiting := (idle.quiet other member same).1
      exact absurd (List.mem_singleton.mp new ▸ waiting) busy

/-- A step of one task keeps a network consistent if the view of its listener is current whenever
the task waits with nothing to read.
-/
theorem Consistent.replaceTask (h : network.Consistent) {before after : List Listening}
    {task later : Listening} {view changed : View} (tasks : network.tasks = before ++ task :: after)
    (listener : later.listener = task.listener) (subscribed : network.Subscribed later)
    (known : network.listeners.get? task.listener = some view)
    (module : changed.module = view.module)
    (current : later.phase = .waiting → network.store.unread later.stream = 0 →
      Current network.store changed)
    : Consistent { network with
        tasks := before ++ later :: after
        listeners := network.listeners.insert task.listener changed } := by
  have others {task' : Listening} (member : task' ∈ before ++ later :: after)
      : task' = later ∨ task' ∈ network.tasks := by
    rw [tasks]
    simp only [List.mem_append, List.mem_cons] at member ⊢
    rcases member with early | rfl | late
    · exact .inr (.inl early)
    · exact .inl rfl
    · exact .inr (.inr (.inr late))
  have still {other : Listening} (h : network.Subscribed other)
      : Subscribed { network with
          tasks := before ++ later :: after
          listeners := network.listeners.insert task.listener changed } other := by
    refine ⟨h.below, h.opened, ?_, h.fresh⟩
    obtain ⟨held, found, same⟩ := h.known
    by_cases here : other.listener = task.listener
    · rw [here, known] at found
      cases found
      exact ⟨changed, by simp [KeyMap.get?_insert, here], module.trans same⟩
    · exact ⟨held, by simp [KeyMap.get?_insert, here, found], same⟩
  refine ⟨h.refuse_nothing, h.keyed, ?_, ?_⟩
  · intro other member
    rcases others member with rfl | old
    · exact still subscribed
    · exact still (h.subscribed other old)
  · intro name shown idle
    have found := idle.known
    simp only [KeyMap.get?_insert] at found
    split at found
    next here =>
      cases found
      obtain ⟨waiting, nothing⟩ := idle.quiet later (by simp) (listener.trans here.symm)
      exact current waiting nothing
    next elsewhere =>
      have attached : ∃ other ∈ network.tasks, other.listener = name := by
        obtain ⟨other, member, same⟩ := idle.attached
        rcases others member with rfl | old
        · exact absurd (same.symm.trans listener) elsewhere
        · exact ⟨other, old, same⟩
      refine h.current name shown ⟨found, attached, ?_⟩
      intro other member same
      refine idle.quiet other ?_ same
      rw [tasks] at member
      simp only [List.mem_append, List.mem_cons] at member ⊢
      rcases member with early | rfl | late
      · exact .inl early
      · exact absurd same.symm elsewhere
      · exact .inr (.inr late)

end

-----------------------------------------------------------------------------------------
-- Every step
-----------------------------------------------------------------------------------------

end Network

/-- A call that succeeds was carried out by the store. -/
theorem NamingService.call_eq_ok {α : Type} {service : NamingService} {call : StoreCall}
    {run : Except MetadataError α} {result : α} (h : service.call call run = .ok result)
    : run = .ok result := by
  unfold NamingService.call at h
  split at h
  · cases h
  · cases run with
    | ok value => exact congrArg _ (Except.ok.inj h)
    | error error => cases h

theorem NamingService.call_of_refuse_nothing {α : Type} {service : NamingService}
    (h : service.refused = []) (call : StoreCall) (result : α)
    : service.call call (.ok result) = .ok result := by
  simp only [NamingService.call, h, List.contains_nil, Bool.false_eq_true, if_false]
  rfl

/-- A registration that a service stores changes the store as any value with a deadline does. -/
theorem NamingService.store_eq_ok {service : NamingService}
    {now : Metadata.Time} {registration : Registration} {store stored : Store}
    (h : service.store now registration store = .ok stored) (keyed : store.DeadlinesKeyed)
    : store.Heard stored ∧ stored.DeadlinesKeyed := by
  obtain ⟨heard, deadlines, path⟩ := Store.putFor_eq_ok (NamingService.call_eq_ok h)
  exact ⟨heard, keyed.insert path deadlines⟩

/-- A reader never gets ahead of its channel. -/
theorem position_le_sent {α : Type} {channel : Metadata.Channel α} {position next : Nat}
    {reading : Metadata.Reading α} (h : channel.read? position = some (reading, next))
    : next ≤ channel.sent := by
  unfold Metadata.Channel.read? at h
  dsimp only at h
  split at h
  · cases h
  next some =>
    simp only [Metadata.Channel.unread] at some
    split at h
    · cases h
      omega
    · obtain ⟨_, _, eq⟩ := Option.map_eq_some_iff.mp h
      cases eq
      omega

namespace Network

/-- A step of a listening task keeps a network consistent: taking a change makes the task busy, what
it reads is what is stored, and what it publishes is stored unless there is more to read.
-/
theorem Consistent.listen {network : Network} (h : network.Consistent)
    {before after : List Listening} {task later : Listening} {service : NamingService}
    {view changed : View} (tasks : network.tasks = before ++ task :: after)
    (served : network.services.get? task.service = some service)
    (known : network.listeners.get? task.listener = some view)
    (step : task.step? service network.store view = some (later, changed))
    : Consistent { network with
        tasks := before ++ later :: after
        listeners := network.listeners.insert task.listener changed } := by
  have subscribed := h.subscribed task (by simp [tasks])
  obtain ⟨below, ⟨channel, found, position⟩, listens, fresh⟩ := subscribed
  unfold Listening.step? at step
  split at step
  next phase =>
    obtain ⟨⟨_, stream⟩, read, eq⟩ := Option.map_eq_some_iff.mp step
    cases eq
    obtain ⟨⟨_, moved⟩, readChannel, eq⟩ := Option.map_eq_some_iff.mp read
    cases eq
    have notAhead := position_le_sent readChannel
    simp only [Store.channel, below, found, Option.getD_some] at notAhead
    refine h.replaceTask tasks rfl ⟨below, ⟨channel, found, notAhead⟩, listens, ?_⟩ known rfl ?_
    · exact fun _ publishing => Phase.noConfusion publishing
    · exact fun waiting => Phase.noConfusion waiting
  next phase =>
    obtain ⟨peers, stored, _⟩ := storedPeers_eq_ok network.store task.module
    have read : service.peers task.module network.store = .ok peers := by
      rw [NamingService.peers, stored]
      exact NamingService.call_of_refuse_nothing (h.refuse_nothing _ _ served) _ _
    rw [read] at step
    cases step
    refine h.replaceTask tasks rfl ⟨below, ⟨channel, found, position⟩, listens, ?_⟩ known rfl ?_
    · intro others publishing _
      cases publishing
      exact stored
    · exact fun waiting => Phase.noConfusion waiting
  next peers phase =>
    cases step
    refine h.replaceTask tasks rfl ⟨below, ⟨channel, found, position⟩, listens, ?_⟩ known rfl ?_
    · exact fun _ publishing => Phase.noConfusion publishing
    · intro _ nothing
      obtain ⟨held, found, module⟩ := listens
      cases known.symm.trans found
      refine ⟨peers, ?_, rfl⟩
      rw [View.change, module]
      exact fresh peers phase nothing

/-- A subscription keeps a network consistent. -/
theorem Consistent.subscribe {network next : Network} (h : network.Consistent)
    {name listener : String} (done : network.subscribe name listener = .ok next)
    : next.Consistent := by
  obtain ⟨service, served, rest⟩ := bind_eq_ok.mp done
  dsimp only at rest
  split at rest
  · cases rest
  next view known =>
    obtain ⟨⟨stream, store⟩, watched, eq⟩ := bind_eq_ok.mp rest
    cases eq
    cases NamingService.call_eq_ok watched
    have opened := network.store.heard_watch (modulePath view.module)
    have changed : Consistent { network with
        store := (network.store.watch (modulePath view.module)).2 } :=
      h.change opened h.keyed rfl rfl h.refuse_nothing
    refine changed.addTask ⟨rfl, ⟨_, ?_, Nat.le_refl _⟩, ⟨view, known, rfl⟩, ?_⟩ ?_
    · simp [Store.watch, KeyMap.get?_insert]
    · exact fun _ publishing => Phase.noConfusion publishing
    · exact Phase.noConfusion

/-- The services after one of them is replaced by one that refuses as much still refuse nothing. -/
theorem Consistent.refuse_nothing_insert {network : Network} (h : network.Consistent)
    {name : String} {service : NamingService} (refuses : service.refused = [])
    : ∀ other found, (network.services.insert name service).get? other = some found →
      found.refused = [] := by
  intro other found bound
  rw [KeyMap.get?_insert] at bound
  split at bound
  · cases bound
    exact refuses
  · exact h.refuse_nothing other found bound

theorem Consistent.refuse_nothing_erase {network : Network} (h : network.Consistent) (name : String)
    : ∀ other found, (network.services.erase name).get? other = some found →
      found.refused = [] := by
  intro other found bound
  rw [KeyMap.get?_erase] at bound
  split at bound
  · cases bound
  · exact h.refuse_nothing other found bound

theorem service_eq_ok {network : Network} {name : String} {service : NamingService}
    (h : network.service name = .ok service)
    : network.services.get? name = some service := by
  unfold Network.service at h
  split at h
  next found => exact found.trans (congrArg some (Except.ok.inj h))
  next => cases h

theorem Consistent.register {network next : Network} (h : network.Consistent) {name : String}
    {registration : Registration} (done : network.register name registration = .ok next)
    : next.Consistent := by
  obtain ⟨service, served, rest⟩ := bind_eq_ok.mp done
  obtain ⟨⟨renewing, stored⟩, registered, eq⟩ := bind_eq_ok.mp rest
  obtain ⟨_, put, same⟩ := bind_eq_ok.mp registered
  cases same
  cases eq
  obtain ⟨heard, keyed⟩ := NamingService.store_eq_ok put h.keyed
  have refuses := h.refuse_nothing _ _ (service_eq_ok served)
  exact h.change heard keyed rfl rfl (h.refuse_nothing_insert refuses)

theorem Consistent.deregister {network : Network} (h : network.Consistent) (name : String)
    (registration : Registration)
    : (network.deregister name registration).2.Consistent := by
  unfold Network.deregister
  cases served : network.service name with
  | error error => exact h
  | ok service =>
      have refuses : (service.release registration).refused = [] :=
        h.refuse_nothing _ service (service_eq_ok served)
      dsimp only
      cases removed : service.remove registration network.store with
      | error error => exact h.change (.refl _) h.keyed rfl rfl (h.refuse_nothing_insert refuses)
      | ok store =>
          obtain ⟨heard, deadlines⟩ := Store.delete_eq_ok (NamingService.call_eq_ok removed)
          exact h.change heard (h.keyed.erase deadlines) rfl rfl (h.refuse_nothing_insert refuses)

theorem Consistent.renew {network : Network} (h : network.Consistent) (name path : String)
    : (network.renew name path).Consistent := by
  unfold Network.renew
  split
  · exact h
  next service _ =>
    split
    · exact h
    next registration _ =>
      split
      next put =>
        obtain ⟨heard, keyed⟩ := NamingService.store_eq_ok put h.keyed
        exact h.change heard keyed rfl rfl h.refuse_nothing
      next => exact h.change (.refl _) h.keyed rfl rfl h.refuse_nothing

theorem Consistent.expire {network next : Network} (h : network.Consistent) {count : Nat}
    (done : network.expire = .ok (count, next))
    : next.Consistent := by
  obtain ⟨_, _, run, heard, keyed⟩ := Store.expire_isOk h.keyed network.clock
  obtain ⟨_, ran, eq⟩ := bind_eq_ok.mp done
  cases run.symm.trans ran
  cases eq
  exact h.change heard keyed rfl rfl h.refuse_nothing

theorem kept_of_listener {network : Network} (name : String)
    : ∀ task ∈ network.tasks, ∀ other ∈ network.tasks, task.listener = other.listener →
      decide (task.listener ≠ name) = true → decide (other.listener ≠ name) = true := by
  intro task _ other _ same kept
  exact same ▸ kept

/-- Together with a service its listeners lose all of their tasks or none. -/
theorem OwnsListeners.kept {network : Network} {name : String} (h : network.OwnsListeners name)
    : ∀ task ∈ network.tasks, ∀ other ∈ network.tasks, task.listener = other.listener →
      decide (task.service ≠ name) = true → decide (other.service ≠ name) = true := by
  intro task member other memberOther same kept
  refine decide_eq_true fun dropped => of_decide_eq_true kept ?_
  exact h other memberOther task member same.symm dropped

theorem Consistent.dropService {network : Network} (h : network.Consistent) {name : String}
    (owns : network.OwnsListeners name)
    : (network.dropService name).Consistent :=
  h.detach rfl rfl owns.kept (fun _ _ _ => rfl) (h.refuse_nothing_erase name)

/-- Every step keeps a network consistent. -/
theorem Consistent.step {network next : Network} (h : network.Consistent)
    (step : network.Step next)
    : next.Consistent := by
  cases step with
  | put done =>
      obtain ⟨heard, deadlines, _⟩ := Store.put_eq_ok done
      exact h.change heard (h.keyed.erase deadlines) rfl rfl h.refuse_nothing
  | putFor done =>
      obtain ⟨heard, deadlines, path⟩ := Store.putFor_eq_ok done
      exact h.change heard (h.keyed.insert path deadlines) rfl rfl h.refuse_nothing
  | delete done =>
      obtain ⟨heard, deadlines⟩ := Store.delete_eq_ok done
      exact h.change heard (h.keyed.erase deadlines) rfl rfl h.refuse_nothing
  | expire done => exact h.expire done
  | wait clock agenda => exact h.change (.refl _) h.keyed rfl rfl h.refuse_nothing
  | register done => exact h.register done
  | deregister name registration => exact h.deregister name registration
  | renew name path => exact h.renew name path
  | addService owns refuses =>
      refine h.detach rfl rfl owns.kept (fun _ _ _ => rfl) ?_
      exact (h.dropService owns).refuse_nothing_insert refuses
  | dropService owns => exact h.dropService owns
  | addListener name module =>
      refine h.detach rfl rfl (kept_of_listener name) ?_ h.refuse_nothing
      intro task _ kept
      have other : task.listener ≠ name := of_decide_eq_true kept
      simp [Network.addListener, dropListener, KeyMap.get?_insert, KeyMap.get?_erase, other]
  | dropListener name =>
      refine h.detach rfl rfl (kept_of_listener name) ?_ h.refuse_nothing
      intro task _ kept
      have other : task.listener ≠ name := of_decide_eq_true kept
      simp [Network.dropListener, KeyMap.get?_erase, other]
  | subscribe done => exact h.subscribe done
  | listen tasks served attached step => exact h.listen tasks served attached step

theorem Reachable.consistent {network : Network} (h : network.Reachable) : network.Consistent := by
  induction h with
  | start =>
      refine ⟨?_, ?_, ?_, ?_⟩
      · exact fun _ _ found => by cases found
      · exact fun _ _ found => by cases found
      · exact fun _ member => absurd member List.not_mem_nil
      · rintro listener view ⟨_, ⟨_, member, _⟩, _⟩
        exact absurd member List.not_mem_nil
  | step _ step ih => exact ih.step step

end Network

end Telemetry.Cluster
