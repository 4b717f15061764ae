import Mathlib.Data.List.Basic
import Mathlib.Data.List.Induction
import Telemetry.Proofs.Cluster.ListeningSteps
import Telemetry.Proofs.Documents.ReadTexts
import Telemetry.Proofs.Metadata.StoreRefinement

/-! The members of a module after any calls of the naming services over one store. The path of a
registration tells its module, its instance and its sequence, so that the store holds below the
paths of the cluster just the latest registration of each member that has not been deregistered.
-/

namespace Telemetry.Cluster

open Metadata (Store PathMap startsWith startsWith_iff refusal?)

-----------------------------------------------------------------------------------------
-- Paths of registrations
-----------------------------------------------------------------------------------------

section

variable {α : Type} {separator : α} {front other back more : List α}

/-- Lists are cut alike at their first separator. -/
theorem cut_at_first (hf : separator ∉ front) (ho : separator ∉ other)
    (h : front ++ separator :: back = other ++ separator :: more)
    : front = other ∧ back = more := by
  rcases List.append_eq_append_iff.mp h with ⟨rest, rfl, tail⟩ | ⟨rest, rfl, tail⟩
  · cases rest with
    | nil => simpa using tail
    | cons first rest =>
        obtain ⟨rfl, _⟩ := List.cons.inj tail
        simp at ho
  · cases rest with
    | nil => simpa [eq_comm] using tail
    | cons first rest =>
        obtain ⟨rfl, _⟩ := List.cons.inj tail
        simp at hf

/-- Lists are cut alike at their last separator. -/
theorem cut_at_last (hb : separator ∉ back) (hm : separator ∉ more)
    (h : front ++ separator :: back = other ++ separator :: more)
    : front = other ∧ back = more := by
  have turned : back.reverse ++ separator :: front.reverse
      = more.reverse ++ separator :: other.reverse := by
    simpa using congrArg List.reverse h
  obtain ⟨backs, fronts⟩ := cut_at_first (by simpa) (by simpa) turned
  exact ⟨List.reverse_inj.mp fronts, List.reverse_inj.mp backs⟩

end

namespace Registration

variable {a b registration : Registration}

/-- Whether a registration takes the place of another one. Both announce one member of a module. -/
def Replaces (a b : Registration) : Prop :=
  a.module = b.module ∧ a.sameMember b = true

instance (a b : Registration) : Decidable (a.Replaces b) :=
  inferInstanceAs (Decidable (_ ∧ _))

theorem toList_key (registration : Registration)
    : registration.key.toList
      = registration.instanceId.toList ++ '_' :: Nat.toDigits 10 registration.sequence := by
  simp [key, toString]

theorem toList_path (registration : Registration)
    : registration.path.toList
      = "/cluster/".toList ++ (registration.module.toList ++ '/' :: registration.key.toList) := by
  simp [path, modulePath]

/-- The key of a registration tells its instance, which may hold underscores, and its sequence. -/
theorem key_inj : a.key = b.key ↔ a.sameMember b = true := by
  simp only [← String.toList_inj, toList_key, sameMember, Bool.and_eq_true, decide_eq_true_eq]
  constructor
  · intro same
    obtain ⟨instances, digits⟩ := cut_at_last Nat.underscore_not_in_toDigits
      Nat.underscore_not_in_toDigits same
    have sequences := congrArg (Nat.ofDigitChars 10 · 0) digits
    exact ⟨instances, by simpa using sequences⟩
  · rintro ⟨instances, sequences⟩
    rw [instances, sequences]

/-- Registrations of modules without slashes have one path if one replaces the other. -/
theorem path_inj (ha : '/' ∉ a.module.toList) (hb : '/' ∉ b.module.toList)
    : a.path = b.path ↔ a.Replaces b := by
  rw [← String.toList_inj, toList_path, toList_path, List.append_cancel_left_eq, Replaces,
    ← key_inj]
  constructor
  · intro same
    obtain ⟨modules, keys⟩ := cut_at_first ha hb same
    exact ⟨String.toList_inj.mp modules, String.toList_inj.mp keys⟩
  · rintro ⟨modules, keys⟩
    rw [modules, keys]

/-- A registration lies below the path of its own module alone. -/
theorem startsWith_path_iff {module : String} (hr : '/' ∉ registration.module.toList)
    (hm : '/' ∉ module.toList)
    : startsWith registration.path (modulePath module) = true ↔ registration.module = module := by
  constructor
  · intro below
    obtain ⟨rest, whole⟩ := startsWith_iff.mp below
    rw [toList_path] at whole
    have parts : "/cluster/".toList ++ (module.toList ++ '/' :: rest)
        = "/cluster/".toList
          ++ (registration.module.toList ++ '/' :: registration.key.toList) := by
      simpa [modulePath] using whole
    exact String.toList_inj.mp (cut_at_first hm hr (List.append_cancel_left parts)).1.symm
  · rintro rfl
    exact startsWith_iff.mpr ⟨registration.key.toList, by simp [path]⟩

theorem startsWith_path (registration : Registration)
    : startsWith registration.path "/cluster/" = true :=
  startsWith_iff.mpr ⟨_, registration.toList_path.symm⟩

/-- The path of a registration can hold a value, since it goes on past its third slash and ends in
a digit.
-/
theorem refusal?_path (registration : Registration) : refusal? registration.path = none := by
  have slashes : 2 < registration.path.toList.count '/' := by
    have whole : registration.path.toList
        = (modulePath registration.module).toList ++ registration.key.toList := by
      simp [path]
    rw [whole, List.count_append]
    exact Nat.lt_add_right _ (slashes_modulePath _)
  have last : registration.path.toList.getLast? ≠ some '/' := by
    have whole : registration.path.toList
        = ("/cluster/".toList ++ (registration.module.toList
            ++ '/' :: (registration.instanceId.toList ++ ['_'])))
          ++ Nat.toDigits 10 registration.sequence := by
      simp [toList_path, toList_key]
    rw [whole, List.getLast?_append_of_ne_nil _ Nat.toDigits_ne_nil]
    intro slash
    have digit : '/' ∈ Nat.toDigits 10 registration.sequence := List.mem_of_getLast? slash
    exact absurd (Nat.isDigit_of_mem_toDigits (by decide) (by decide) digit) (by decide)
  rw [refusal?, if_neg (by omega), if_neg]
  rintro (two | ⟨_, slash⟩)
  · omega
  · exact last slash

/-- A registration is read back from its text. -/
theorem read?_json_encode (h : registration.sequence < 2 ^ 32)
    : read? registration.encode.json = some registration := by
  have bounds : 0 ≤ (registration.sequence : Int) ∧ (registration.sequence : Int) ≤ 2 ^ 32 - 1 := by
    omega
  have written : registration.encode.IsJson := by
    simp only [encode, Value.IsJson, Value.FieldsJson]
    exact ⟨trivial, trivial, trivial, ⟨by omega, by omega⟩, trivial⟩
  have skimmed : registration.encode.json.skimmed? = some registration.encode.reread :=
    (Document.parse?_render written none).trans (if_pos fun _ none => nomatch none)
  have fields : registration.encode.reread.requiredFields? fieldNames
      = some [.text registration.module, .text registration.provider,
          .text registration.instanceId, .int registration.sequence] := by
    rfl
  simp only [read?, skimmed, decode?, fields, Option.bind_eq_bind, Option.bind_some, Value.text?,
    Value.natOfBits?, Value.intWithin?, if_pos bounds, Option.map_some, Int.toNat_natCast]

end Registration

-----------------------------------------------------------------------------------------
-- Calls
-----------------------------------------------------------------------------------------

namespace Network

/-- A call of a naming service, a run of a recurring task, a change of the clocks, or a call that
another client makes to the store.
-/
inductive Call where
  | register (service : String) (registration : Registration)
  | deregister (service : String) (registration : Registration)
  | task (chore : Chore)
  | wait (clock : Metadata.Time) (agenda : Agenda Chore)
  | store (call : Metadata.Call)

/-- Makes a call. A registration that fails leaves the network as it was. -/
def make (network : Network) : Call → Network
  | .register name registration =>
      match network.register name registration with
      | .ok next => next
      | .error _ => network
  | .deregister name registration => (network.deregister name registration).2
  | .task chore => network.run chore
  | .wait clock agenda => { network with clock, agenda }
  | .store call => { network with store := (network.store.call call).2 }

def afterCalls (network : Network) (calls : List Call) : Network :=
  calls.foldl make network

namespace Call

/-- The service of a call and what it registers or deregisters. -/
def named? : Call → Option (String × Registration)
  | .register name registration | .deregister name registration => some (name, registration)
  | .task _ | .wait _ _ | .store _ => none

/-- A call registers or deregisters the member of a registration. -/
def Concerns (call : Call) (registration : Registration) : Prop :=
  ∃ named ∈ call.named?, named.2.Replaces registration

instance (call : Call) (registration : Registration) : Decidable (call.Concerns registration) :=
  inferInstanceAs (Decidable (∃ named ∈ call.named?, named.2.Replaces registration))

/-- A call is made to a service that is there and refuses nothing, about a module without slashes in
its name and a sequence of 32 bits; nothing expires, and no other client writes to the paths of the
cluster.
-/
def Admitted (network : Network) : Call → Prop
  | .register name registration | .deregister name registration =>
      '/' ∉ registration.module.toList ∧ registration.sequence < 2 ^ 32
        ∧ (network.services.get? name).map (·.refused) = some []
  | .task (.expire _) => network.store.due network.clock = []
  | .store (.expire now) => network.store.due now = []
  | .store call => ∀ text ∈ call.target?, startsWith text "/cluster/" = false
  | .task (.renew _ _) | .wait _ _ => True

end Call

/-- All of some calls are admitted when they are made. -/
def Admits (network : Network) : List Call → Prop
  | [] => True
  | call :: rest => call.Admitted network ∧ (network.make call).Admits rest

/-- Nothing is registered or deregistered for a module with a slash in its name. -/
def SlashFree (calls : List Call) : Prop :=
  ∀ call ∈ calls, ∀ named ∈ call.named?, '/' ∉ named.2.module.toList

/-- Each member is registered and deregistered through one service. -/
def OneServiceEach (calls : List Call) : Prop :=
  ∀ call ∈ calls, ∀ other ∈ calls, ∀ named ∈ call.named?, ∀ again ∈ other.named?,
    named.2.Replaces again.2 → named.1 = again.1

/-- A registration is the last of its member among some calls, and none deregisters the member after
it.
-/
def Stands (calls : List Call) (name : String) (registration : Registration) : Prop :=
  ∃ before after, calls = before ++ .register name registration :: after
    ∧ ∀ call ∈ after, ¬call.Concerns registration

section

variable {network : Network} {calls : List Call} {call : Call} {name : String}
  {registration : Registration}

theorem afterCalls_concat (network : Network) (calls : List Call) (call : Call)
    : network.afterCalls (calls ++ [call]) = (network.afterCalls calls).make call := by
  simp [afterCalls]

theorem admits_append {more : List Call}
    : network.Admits (calls ++ more)
      ↔ network.Admits calls ∧ (network.afterCalls calls).Admits more := by
  induction calls generalizing network with
  | nil => simp [Admits, afterCalls]
  | cons call rest ih => simp [Admits, afterCalls, ih, and_assoc]

theorem admits_concat
    : network.Admits (calls ++ [call])
      ↔ network.Admits calls ∧ call.Admitted (network.afterCalls calls) := by
  simp [admits_append, Admits]

/-- What admitted calls name is of a module without slashes and has a sequence that is read back. -/
theorem Admits.named (h : network.Admits calls) (member : call ∈ calls)
    {named : String × Registration} (about : named ∈ call.named?)
    : '/' ∉ named.2.module.toList ∧ named.2.sequence < 2 ^ 32 := by
  obtain ⟨before, after, rfl⟩ := List.append_of_mem member
  have admitted := (admits_append.mp h).2.1
  cases call with
  | register | deregister =>
      cases about
      exact ⟨admitted.1, admitted.2.1⟩
  | task | wait | store => cases about

/-- One more call makes a registration stand, or leaves it standing if it concerns another one. -/
theorem stands_concat
    : Stands (calls ++ [call]) name registration
      ↔ call = .register name registration
        ∨ Stands calls name registration ∧ ¬call.Concerns registration := by
  constructor
  · rintro ⟨before, after, whole, later⟩
    rcases List.eq_nil_or_concat after with rfl | ⟨between, last, rfl⟩
    · exact .inl (List.cons.inj (List.append_inj' whole rfl).2).1
    · rw [List.concat_eq_append] at whole later
      obtain ⟨front, back⟩ := List.append_inj'
        (whole.trans (List.append_assoc before (_ :: between) [last]).symm) rfl
      cases back
      refine .inr ⟨⟨before, between, front, fun other member => ?_⟩, ?_⟩
      · exact later other (List.mem_append_left _ member)
      · exact later call (List.mem_append_right _ List.mem_cons_self)
  · rintro (rfl | ⟨⟨before, after, rfl, later⟩, apart⟩)
    · exact ⟨calls, [], rfl, fun _ member => absurd member List.not_mem_nil⟩
    · refine ⟨before, after ++ [call], by simp, fun other member => ?_⟩
      rcases List.mem_append.mp member with earlier | last
      · exact later other earlier
      · exact List.mem_singleton.mp last ▸ apart

/-- A call that names nothing leaves the same registrations standing. -/
theorem stands_concat_of_named? (h : call.named? = none)
    : Stands (calls ++ [call]) name registration ↔ Stands calls name registration := by
  have apart : ¬call.Concerns registration := by simp [Call.Concerns, h]
  have other : call ≠ .register name registration := by
    rintro rfl
    cases h
  simp [stands_concat, apart, other]

theorem Stands.mem (h : Stands calls name registration)
    : .register name registration ∈ calls := by
  obtain ⟨before, after, rfl, _⟩ := h
  simp

end

-----------------------------------------------------------------------------------------
-- What the store and the services keep
-----------------------------------------------------------------------------------------

/-- Below the paths of the cluster, a map holds the registrations that stand and nothing else. -/
def Holds (calls : List Call) (map : PathMap) : Prop :=
  ∀ text, startsWith text "/cluster/" = true → ∀ value,
    (map.get? text).map (·.value) = some value
      ↔ ∃ name registration, Stands calls name registration
        ∧ registration.path = text ∧ registration.encode = value

/-- What every call preserves: the store holds the registrations that stand, and a service renews
just those of them that were made through it.
-/
structure Follows (network : Network) (calls : List Call) : Prop where
  stored : ∃ map : PathMap, network.store.Refines map ∧ Holds calls map
  renewed : ∀ name service path registration, network.services.get? name = some service →
    service.renewed.get? path = some registration →
    registration.path = path ∧ Stands calls name registration

section

variable {network : Network} {calls : List Call} {call : Call} {name : String}
  {registration : Registration}

/-- A call that names nothing keeps what the store holds if each value stays. -/
theorem Holds.of_named? {map changed : PathMap} (h : Holds calls map) (quiet : call.named? = none)
    (same : ∀ text, startsWith text "/cluster/" = true →
      (changed.get? text).map (·.value) = (map.get? text).map (·.value))
    : Holds (calls ++ [call]) changed := by
  intro text below value
  simp only [same text below, stands_concat_of_named? quiet]
  exact h text below value

theorem Follows.of_named? {next : Network} (h : network.Follows calls) (quiet : call.named? = none)
    (services : next.services = network.services)
    (stored : ∀ map : PathMap, network.store.Refines map → Holds calls map →
      ∃ changed : PathMap, next.store.Refines changed
        ∧ ∀ text, startsWith text "/cluster/" = true →
          (changed.get? text).map (·.value) = (map.get? text).map (·.value))
    : next.Follows (calls ++ [call]) where
  stored := by
    obtain ⟨map, refines, holds⟩ := h.stored
    obtain ⟨changed, refined, same⟩ := stored map refines holds
    exact ⟨changed, refined, holds.of_named? quiet same⟩
  renewed := by
    intro name service path registration served renews
    rw [services] at served
    rw [stands_concat_of_named? quiet]
    exact h.renewed name service path registration served renews

/-- A renewal stores what the store holds already. -/
theorem Follows.renew (h : network.Follows calls) (name path : String)
    : (network.renew name path).Follows (calls ++ [.task (.renew name path)]) := by
  have unchanged : network.Follows (calls ++ [.task (.renew name path)]) :=
    h.of_named? rfl rfl fun map refines _ => ⟨map, refines, fun _ _ => rfl⟩
  unfold Network.renew
  split
  · exact unchanged
  next service served =>
    split
    · exact unchanged
    next registration renews =>
      obtain ⟨rfl, stands⟩ := h.renewed name service path registration served renews
      split
      next store done =>
        refine h.of_named? rfl rfl fun map refines holds => ?_
        obtain ⟨changed, put, refined, _⟩ := refines.putFor registration.refusal?_path
          network.clock service.ttl registration.encode
        cases (NamingService.call_eq_ok done).symm.trans put
        refine ⟨_, refined, fun text below => ?_⟩
        rw [KeyMap.get?_insert]
        split
        next here =>
          subst here
          exact ((holds _ below _).mpr ⟨name, registration, stands, rfl, rfl⟩).symm
        next => rfl
      next => exact ⟨unchanged.stored, unchanged.renewed⟩

/-- A store from which nothing expires is left as it is. -/
theorem expire_of_due {now : Metadata.Time} {store : Store} (h : store.due now = [])
    : store.expire now = .ok (0, store) := by
  simp only [Store.expire, h]
  rfl

/-- A call of another client does not concern the paths of the cluster. -/
theorem Follows.store (h : network.Follows calls) {call : Metadata.Call}
    (admitted : (Call.store call).Admitted network)
    : (network.make (.store call)).Follows (calls ++ [.store call]) := by
  refine h.of_named? rfl rfl fun map refines _ => ?_
  obtain ⟨_, refined, _⟩ := refines.call call
  cases call with
  | expire now =>
      have same : (network.store.call (.expire now)).2 = network.store := by
        simp only [Store.call, expire_of_due admitted]
      exact ⟨map, by rwa [make, same], fun _ _ => rfl⟩
  | get path => exact ⟨map, refines, fun _ _ => rfl⟩
  | put path | putFor _ _ path | delete path =>
      have elsewhere : startsWith path "/cluster/" = false := admitted path rfl
      refine ⟨_, refined, fun text below => ?_⟩
      have ne : path ≠ text := by
        rintro rfl
        cases elsewhere.symm.trans below
      simp [map.get?_call, Metadata.Call.effect, ne]

/-- A call that registers or deregisters changes what is kept at one path. No other registration has
that path, and no other service renews it.
-/
theorem Follows.change {next : Network} {service altered : NamingService}
    (h : network.Follows calls) (kept : Option Registration)
    (plain : SlashFree (calls ++ [call]))
    (owned : OneServiceEach (calls ++ [call])) (named : call.named? = some (name, registration))
    (registers : ∀ other newer, call = .register other newer ↔ other = name ∧ kept = some newer)
    (own : ∀ newer ∈ kept, newer = registration)
    (served : network.services.get? name = some service)
    (services : next.services = network.services.insert name altered)
    (renewed : ∀ path, altered.renewed.get? path
      = if path = registration.path then kept else service.renewed.get? path)
    (stored : ∀ map : PathMap, network.store.Refines map → ∃ changed : PathMap,
      next.store.Refines changed ∧ ∀ text, (changed.get? text).map (·.value)
        = if text = registration.path then kept.map (·.encode)
          else (map.get? text).map (·.value))
    : next.Follows (calls ++ [call]) := by
  have concerns (older : Registration) : call.Concerns older ↔ registration.Replaces older := by
    simp [Call.Concerns, named]
  have path {other : String} {older : Registration} (stands : Stands calls other older)
      : registration.path = older.path ↔ registration.Replaces older :=
    Registration.path_inj
      (plain call (List.mem_append_right _ List.mem_cons_self) _ named)
      (plain _ (List.mem_append_left _ stands.mem) _ rfl)
  constructor
  · obtain ⟨map, refines, holds⟩ := h.stored
    obtain ⟨changed, refined, values⟩ := stored map refines
    refine ⟨changed, refined, fun text below value => ?_⟩
    rw [values]
    split
    next here =>
      subst here
      constructor
      · intro new
        obtain ⟨newer, isKept, rfl⟩ := Option.map_eq_some_iff.mp new
        obtain rfl := own newer isKept
        exact ⟨name, newer, stands_concat.mpr (.inl ((registers _ _).mpr ⟨rfl, isKept⟩)), rfl, rfl⟩
      · rintro ⟨other, older, stands, same, rfl⟩
        rcases stands_concat.mp stands with new | ⟨stood, apart⟩
        · rw [((registers _ _).mp new).2]
          rfl
        · exact absurd ((concerns older).mpr ((path stood).mp same.symm)) apart
    next elsewhere =>
      rw [holds text below value]
      constructor
      · rintro ⟨other, older, stood, rfl, rfl⟩
        refine ⟨other, older, stands_concat.mpr (.inr ⟨stood, fun concerned => ?_⟩), rfl, rfl⟩
        exact elsewhere ((path stood).mpr ((concerns older).mp concerned)).symm
      · rintro ⟨other, older, stands, rfl, rfl⟩
        rcases stands_concat.mp stands with new | ⟨stood, _⟩
        · exact absurd (congrArg _ (own older ((registers _ _).mp new).2)) elsewhere
        · exact ⟨other, older, stood, rfl, rfl⟩
  · intro other service' path' older served' renews
    rw [services, KeyMap.get?_insert] at served'
    split at served'
    next same =>
      subst same
      cases served'
      rw [renewed] at renews
      split at renews
      next here =>
        obtain rfl := own older renews
        exact ⟨here.symm, stands_concat.mpr (.inl ((registers _ _).mpr ⟨rfl, renews⟩))⟩
      next elsewhere =>
        obtain ⟨rfl, stood⟩ := h.renewed other service path' older served renews
        refine ⟨rfl, stands_concat.mpr (.inr ⟨stood, fun concerned => ?_⟩)⟩
        exact elsewhere ((path stood).mpr ((concerns older).mp concerned)).symm
    next ne =>
      obtain ⟨rfl, stood⟩ := h.renewed other service' path' older served' renews
      refine ⟨rfl, stands_concat.mpr (.inr ⟨stood, fun concerned => ne ?_⟩)⟩
      exact (owned call (List.mem_append_right _ List.mem_cons_self) _
        (List.mem_append_left _ stood.mem) _ named _ rfl ((concerns older).mp concerned)).symm

/-- A registration takes the place of what stood at its path. -/
theorem Follows.register (h : network.Follows calls)
    (plain : SlashFree (calls ++ [.register name registration]))
    (owned : OneServiceEach (calls ++ [.register name registration]))
    (accepts : (network.services.get? name).map (·.refused) = some [])
    : (network.make (.register name registration)).Follows
        (calls ++ [.register name registration]) := by
  obtain ⟨service, served, refused⟩ := Option.map_eq_some_iff.mp accepts
  obtain ⟨_, refines, _⟩ := h.stored
  obtain ⟨stored, put, _⟩ := refines.putFor registration.refusal?_path network.clock service.ttl
    registration.encode
  have made : network.make (.register name registration) = { network with
      store := stored
      services := network.services.insert name { service with
        renewed := service.renewed.insert registration.path registration }
      agenda := (stopRenewal network.agenda name registration.path).arm
        (.renew name registration.path) service.renewalPeriod .restarted } := by
    simp only [make, Network.register, Network.service, served, NamingService.register,
      NamingService.store, put, NamingService.call_of_refuse_nothing refused, bind, Except.bind]
    rfl
  rw [made]
  refine h.change (some registration) plain owned rfl (by simp [eq_comm]) (by simp) served rfl
    (fun path => KeyMap.get?_insert _ _ _ _) fun map refines => ?_
  obtain ⟨_, again, refined, _⟩ := refines.putFor registration.refusal?_path network.clock
    service.ttl registration.encode
  cases put.symm.trans again
  refine ⟨_, refined, fun text => ?_⟩
  rw [KeyMap.get?_insert]
  split <;> rfl

/-- A deregistration leaves nothing at its path. -/
theorem Follows.deregister (h : network.Follows calls)
    (plain : SlashFree (calls ++ [.deregister name registration]))
    (owned : OneServiceEach (calls ++ [.deregister name registration]))
    (accepts : (network.services.get? name).map (·.refused) = some [])
    : (network.make (.deregister name registration)).Follows
        (calls ++ [.deregister name registration]) := by
  obtain ⟨service, served, refused⟩ := Option.map_eq_some_iff.mp accepts
  obtain ⟨_, refines, _⟩ := h.stored
  obtain ⟨removed, deleted, _⟩ := refines.delete registration.refusal?_path
  have released : (service.release registration).refused = [] := refused
  have made : network.make (.deregister name registration) = { network with
      store := removed
      services := network.services.insert name (service.release registration)
      agenda := stopRenewal network.agenda name registration.path } := by
    simp only [make, Network.deregister, Network.service, served, NamingService.remove, deleted,
      NamingService.call_of_refuse_nothing refused]
  rw [made]
  refine h.change none plain owned rfl (by simp) (by simp) served rfl
    (fun path => KeyMap.get?_erase _ _ _) fun map refines => ?_
  obtain ⟨_, again, refined, _⟩ := refines.delete registration.refusal?_path
  cases deleted.symm.trans again
  refine ⟨_, refined, fun text => ?_⟩
  rw [KeyMap.get?_erase]
  split <;> rfl

/-- Every admitted call keeps the store and the services in line with what stands. -/
theorem Follows.step {start : Network} (h : (start.afterCalls calls).Follows calls)
    (admits : start.Admits (calls ++ [call])) (owned : OneServiceEach (calls ++ [call]))
    : (start.afterCalls (calls ++ [call])).Follows (calls ++ [call]) := by
  have plain : SlashFree (calls ++ [call]) := fun _ member _ about =>
    (admits.named member about).1
  have admitted := (admits_concat.mp admits).2
  rw [afterCalls_concat]
  cases call with
  | register name registration => exact h.register plain owned admitted.2.2
  | deregister name registration => exact h.deregister plain owned admitted.2.2
  | wait clock agenda =>
      exact h.of_named? rfl rfl fun map refines _ => ⟨map, refines, fun _ _ => rfl⟩
  | store call => exact h.store admitted
  | task chore =>
      cases chore with
      | renew name path => exact h.renew name path
      | expire owner =>
          have same : (start.afterCalls calls).make (.task (.expire owner))
              = start.afterCalls calls := by
            simp only [make, Network.run, Network.expire, expire_of_due admitted]
            rfl
          rw [same]
          exact h.of_named? rfl rfl fun map refines _ => ⟨map, refines, fun _ _ => rfl⟩

/-- The store holds the text of each registration that stands, at its own path. -/
theorem Follows.get_eq_some_iff (h : network.Follows calls) {text : String} {value : Value}
    (slashes : 2 ≤ text.toList.count '/') (below : startsWith text "/cluster/" = true)
    : network.store.get text = .ok (some value)
      ↔ ∃ name registration, Stands calls name registration
        ∧ registration.path = text ∧ registration.encode = value := by
  obtain ⟨map, refines, holds⟩ := h.stored
  rw [refines.get_eq, if_neg (by omega), ← holds text below value, Except.ok.injEq]

/-- A text below the path of a module is a text below the cluster, with a key. -/
theorem startsWith_cluster {text module : String}
    (below : startsWith text (modulePath module) = true)
    : 2 ≤ text.toList.count '/' ∧ startsWith text "/cluster/" = true := by
  have start := startsWith_iff.mp below
  have slashes := start.sublist.count_le '/'
  have path := slashes_modulePath module
  refine ⟨by omega, startsWith_iff.mpr (List.IsPrefix.trans ?_ start)⟩
  exact ⟨module.toList ++ ['/'], by simp [modulePath]⟩

/-- What is read below the path of a module stands and has the path that it is read from. -/
theorem Follows.path_of_read? (h : network.Follows calls) {start : Network}
    (admits : start.Admits calls) {module text : String} {value : Value}
    (below : startsWith text (modulePath module) = true)
    (found : network.store.get text = .ok (some value))
    (read : Registration.read? value.json = some registration)
    : registration.path = text ∧ ∃ name, Stands calls name registration := by
  obtain ⟨slashes, cluster⟩ := startsWith_cluster below
  obtain ⟨name, older, stands, rfl, rfl⟩ := (h.get_eq_some_iff slashes cluster).mp found
  obtain ⟨_, bounded⟩ := admits.named stands.mem rfl
  cases (Registration.read?_json_encode bounded).symm.trans read
  exact ⟨rfl, name, stands⟩

/-- The registrations found for a module are those of the module that stand. -/
theorem Follows.registered_iff (h : network.Follows calls) {start : Network}
    (admits : start.Admits calls) {module : String} (slashFree : '/' ∉ module.toList)
    : Registered network.store module registration
      ↔ registration.module = module ∧ ∃ name, Stands calls name registration := by
  constructor
  · rintro ⟨text, value, below, found, read⟩
    obtain ⟨rfl, name, stands⟩ := h.path_of_read? admits below found read
    have plain := (admits.named stands.mem rfl).1
    exact ⟨(Registration.startsWith_path_iff plain slashFree).mp below, name, stands⟩
  · rintro ⟨rfl, name, stands⟩
    obtain ⟨plain, bounded⟩ := admits.named stands.mem rfl
    have below := (Registration.startsWith_path_iff plain slashFree).mpr rfl
    obtain ⟨slashes, cluster⟩ := startsWith_cluster below
    refine ⟨registration.path, registration.encode, below, ?_,
      Registration.read?_json_encode bounded⟩
    exact (h.get_eq_some_iff slashes cluster).mpr ⟨name, registration, stands, rfl, rfl⟩

/-- No registration is found twice, since different texts are listed. -/
theorem Follows.nodup_storedPeers (h : network.Follows calls) {start : Network}
    (admits : start.Admits calls) {module : String} {peers : List Registration}
    (found : storedPeers network.store module = .ok peers)
    : peers.Nodup := by
  obtain ⟨entries, listing, eq⟩ := bind_eq_ok.mp found
  cases eq
  obtain ⟨_, again, listed⟩ := @Store.bulk_eq_ok network.store _ (slashes_modulePath module)
  cases listing.symm.trans again
  have path {entry : String × Json} {registration : Registration} (member : entry ∈ entries)
      (read : Registration.read? entry.2 = some registration)
      : registration.path = entry.1 := by
    obtain ⟨below, kept, got, same⟩ := (listed entry.1 entry.2).mp member
    exact (h.path_of_read? admits below got (same ▸ read)).1
  rw [(inOrder_perm _).nodup_iff]
  refine List.pairwise_filterMap.mpr
    ((List.pairwise_map.mp (Store.nodup_bulk listing)).imp_of_mem ?_)
  intro one other memberOne memberOther texts a read b readToo same
  exact texts ((path memberOne read).symm.trans (same ▸ path memberOther readToo))

/-- One registration stands for a member. -/
theorem Follows.eq_of_replaces (h : network.Follows calls) {start : Network}
    (admits : start.Admits calls) {other : String} {newer : Registration}
    (stands : Stands calls name registration) (standsToo : Stands calls other newer)
    (same : registration.Replaces newer)
    : registration = newer := by
  obtain ⟨map, _, holds⟩ := h.stored
  obtain ⟨plain, bounded⟩ := admits.named stands.mem rfl
  obtain ⟨plainToo, boundedToo⟩ := admits.named standsToo.mem rfl
  have paths := (Registration.path_inj plain plainToo).mpr same
  have below := registration.startsWith_path
  have one := (holds _ below _).mpr ⟨name, registration, stands, rfl, rfl⟩
  have two := (holds _ below _).mpr ⟨other, newer, standsToo, paths.symm, rfl⟩
  have texts : registration.encode = newer.encode := Option.some.inj (one.symm.trans two)
  have read := Registration.read?_json_encode bounded
  rw [texts, Registration.read?_json_encode boundedToo] at read
  exact (Option.some.inj read).symm

/-- The members found for a module are those that stand, in order and one entry for each. -/
theorem Follows.storedPeers (h : network.Follows calls) {start : Network}
    (admits : start.Admits calls) {module : String} (slashFree : '/' ∉ module.toList)
    : ∃ peers, storedPeers network.store module = .ok peers
      ∧ peers.Pairwise (fun a b => a.le b = true ∧ a.sameMember b = false)
      ∧ ∀ registration, registration ∈ peers
        ↔ registration.module = module ∧ ∃ name, Stands calls name registration := by
  obtain ⟨peers, found, listed⟩ := storedPeers_eq_ok network.store module
  refine ⟨peers, found, ?_, fun registration =>
    (listed registration).trans (h.registered_iff admits slashFree)⟩
  have sorted : peers.Pairwise (·.le ·) := by
    obtain ⟨entries, _, eq⟩ := bind_eq_ok.mp found
    cases eq
    exact pairwise_inOrder _
  refine (sorted.and (h.nodup_storedPeers admits found)).imp_of_mem ?_
  rintro a b memberA memberB ⟨le, ne⟩
  refine ⟨le, Bool.eq_false_iff.mpr fun same => ne ?_⟩
  obtain ⟨inModule, name, stands⟩ := (h.registered_iff admits slashFree).mp ((listed a).mp memberA)
  obtain ⟨inModuleToo, other, standsToo⟩ :=
    (h.registered_iff admits slashFree).mp ((listed b).mp memberB)
  exact h.eq_of_replaces admits stands standsToo ⟨inModule.trans inModuleToo.symm, same⟩

end

end Network

end Telemetry.Cluster
