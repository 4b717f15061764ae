import Telemetry.Collector.Provider
import Telemetry.Proofs.Results

/-! What the check of a configuration accepts, which of several faults it reports, and what it makes
of an accepted one. Each part of the check complains for itself, and a check made of parts fails
with the first complaint.
-/

namespace Telemetry

namespace Settings

-----------------------------------------------------------------------------------------
-- Checks that report the first complaint
-----------------------------------------------------------------------------------------

section

variable {ε α β : Type} {first : Except ε α} {complaints more : List ε}

/-- Whether a check fails with the first of some complaints, and succeeds without any. -/
def ReportsFirst (check : Except ε α) (complaints : List ε) : Prop :=
  ∀ error, check = .error error ↔ complaints.head? = some error

namespace ReportsFirst

theorem exists_ok_iff (h : ReportsFirst first complaints)
    : (∃ value, first = .ok value) ↔ complaints = [] := by
  cases complaints with
  | nil =>
      cases result : first with
      | ok value => simp
      | error error => exact absurd ((h error).mp result) (by simp)
  | cons error rest =>
      rw [(h error).mpr rfl]
      simp

theorem ok (value : α) : ReportsFirst (.ok value : Except ε α) [] := by
  intro error
  simp

/-- A condition that must hold complains if it does not. -/
theorem ite (condition : Prop) [Decidable condition] (value : α) (error : ε)
    : ReportsFirst (if condition then .ok value else .error error)
        (if condition then [] else [error]) := by
  intro other
  split <;> simp

/-- Of two checks one after the other the second one is heard if the first one does not complain. -/
theorem bind {second : α → Except ε β} (h : ReportsFirst first complaints)
    (next : ∀ value, first = .ok value → ReportsFirst (second value) more)
    : ReportsFirst (first >>= second) (complaints ++ more) := by
  intro error
  rw [bind_eq_error, h error, List.head?_append, Option.or_eq_some_iff]
  refine or_congr_right ?_
  constructor
  · rintro ⟨value, accepted, fails⟩
    have silent := h.exists_ok_iff.mp ⟨value, accepted⟩
    exact ⟨by rw [silent]; rfl, (next value accepted error).mp fails⟩
  · rintro ⟨silent, later⟩
    obtain ⟨value, accepted⟩ := h.exists_ok_iff.mpr (List.head?_eq_none_iff.mp silent)
    exact ⟨value, accepted, (next value accepted error).mpr later⟩

end ReportsFirst

end

-----------------------------------------------------------------------------------------
-- The parts of a configuration
-----------------------------------------------------------------------------------------

namespace Written

/-- What is wrong with the choice of a table store. -/
def backendComplaints (storage : StorageSection) : List ConfigurationError :=
  if storage.provider = "memory" then []
  else if storage.provider = "redb" then
    if storage.databasePath.isSome then [] else [.databasePathMissing]
  else [.unknownStorageProvider storage.provider]

/-- What is wrong with a period. -/
def periodComplaints (given : Option Nat) (key : String) : List ConfigurationError :=
  if given ≠ some 0 then [] else [.storagePeriodZero key]

/-- What is wrong with the address of the exporter. -/
def exporterComplaints (prometheus : Option String) : List ConfigurationError :=
  match prometheus with
  | none => []
  | some text => if (SocketAddress.parse? text).isSome then [] else [.badPrometheusAddress text]

/-- All that is wrong with a configuration, in the order of the checks. -/
def complaints (written : Written) : List ConfigurationError :=
  let cluster := written.cluster
  let storage := written.storage
  List.flatten [
    if cluster.provider = "standalone" then [] else [.unknownClusterProvider cluster.provider],
    if cluster.registrationTtlSecs ≠ 0 then [] else [.registrationTtlZero],
    backendComplaints storage,
    periodComplaints storage.ttlCheckIntervalSecs "ttl_check_interval_secs",
    periodComplaints storage.flushIntervalSecs "flush_interval_secs",
    periodComplaints storage.flushTimeoutSecs "flush_timeout_secs",
    exporterComplaints written.prometheus]

theorem reportsFirst_backend (storage : StorageSection)
    : ReportsFirst (backend storage) (backendComplaints storage) := by
  intro error
  unfold backend backendComplaints
  split
  next memory => simp [memory]
  next redb =>
    rw [redb]
    cases storage.databasePath <;> simp
  next other notMemory notRedb =>
    rw [if_neg notMemory, if_neg notRedb]
    simp

theorem reportsFirst_period (given : Option Nat) {fallback : Nat} (positive : 0 < fallback)
    (key : String)
    : ReportsFirst (period given fallback key) (periodComplaints given key) := by
  intro error
  unfold period periodComplaints
  split
  next zero =>
    have given : given = some 0 := by
      cases given with
      | none => exact absurd zero (Nat.ne_of_gt positive)
      | some secs => exact congrArg some zero
    simp [given]
  next secs nonzero =>
    have given : given ≠ some 0 := fun zero => nonzero (by rw [zero]; rfl)
    simp [given]

theorem reportsFirst_exporter (prometheus : Option String)
    : ReportsFirst (exporter prometheus) (exporterComplaints prometheus) := by
  intro error
  unfold exporter exporterComplaints
  cases prometheus with
  | none => simp
  | some text => cases parsed : SocketAddress.parse? text <;> simp [parsed]

/-- The configuration in use of a written one and its checked parts. -/
def resolved (written : Written) (place : Storage.BackendKind × Option String)
    (ttlCheck flushInterval flushTimeout : Nat) (prometheus : Option SocketAddress)
    : Configuration where
  clusterName := written.clusterName
  tableNamespace := written.tableNamespace
  registrationTtlSecs := written.cluster.registrationTtlSecs
  storage := {
    backend := place.1
    databasePath := place.2
    ttlDays := Storage.effectiveTtlDays (written.storage.ttlDays.getD 0)
    ttlCheckIntervalSecs := ttlCheck
    flushIntervalSecs := flushInterval
    flushTimeoutSecs := flushTimeout
    strictMerge := written.storage.strictMerge }
  prometheus := prometheus

/-- The check of a configuration as a sequence of the checks of its parts. -/
theorem check_eq (written : Written)
    : written.check =
        (if written.cluster.provider = "standalone" then .ok ()
          else .error (.unknownClusterProvider written.cluster.provider)) >>= fun _ =>
        (if written.cluster.registrationTtlSecs ≠ 0 then .ok ()
          else .error .registrationTtlZero) >>= fun _ =>
        backend written.storage >>= fun place =>
        period written.storage.ttlCheckIntervalSecs 86400 "ttl_check_interval_secs"
          >>= fun ttlCheck =>
        period written.storage.flushIntervalSecs 1 "flush_interval_secs" >>= fun flushInterval =>
        period written.storage.flushTimeoutSecs 30 "flush_timeout_secs" >>= fun flushTimeout =>
        exporter written.prometheus >>= fun prometheus =>
        .ok (written.resolved place ttlCheck flushInterval flushTimeout prometheus) := by
  unfold check
  -- The two conditions of the cluster section are negated in the check and end it early.
  by_cases provider : written.cluster.provider = "standalone"
  · by_cases ttl : written.cluster.registrationTtlSecs = 0
    · rw [if_neg (not_not_intro provider), if_pos ttl, if_pos provider, if_neg (not_not_intro ttl)]
      rfl
    · rw [if_neg (not_not_intro provider), if_neg ttl, if_pos provider, if_pos ttl]
      rfl
  · rw [if_pos provider, if_neg provider]
    rfl

/-- The check of a configuration fails with the first complaint. -/
theorem reportsFirst_check (written : Written)
    : ReportsFirst written.check written.complaints := by
  rw [check_eq]
  refine (ReportsFirst.ite _ () _).bind fun _ _ => ?_
  refine (ReportsFirst.ite _ () _).bind fun _ _ => ?_
  refine (reportsFirst_backend _).bind fun _ _ => ?_
  refine (reportsFirst_period _ (by decide) _).bind fun _ _ => ?_
  refine (reportsFirst_period _ (by decide) _).bind fun _ _ => ?_
  refine (reportsFirst_period _ (by decide) _).bind fun _ _ => ?_
  exact (reportsFirst_exporter _).bind fun _ _ => .ok _

-----------------------------------------------------------------------------------------
-- Accepted configurations
-----------------------------------------------------------------------------------------

/-- A configuration of which no part gives rise to a complaint. -/
structure IsSound (written : Written) : Prop where
  cluster : written.cluster.provider = "standalone"
  registrationTtl : written.cluster.registrationTtlSecs ≠ 0
  storage : written.storage.provider = "memory"
    ∨ written.storage.provider = "redb" ∧ written.storage.databasePath.isSome
  ttlCheckInterval : written.storage.ttlCheckIntervalSecs ≠ some 0
  flushInterval : written.storage.flushIntervalSecs ≠ some 0
  flushTimeout : written.storage.flushTimeoutSecs ≠ some 0
  prometheus : ∀ text, written.prometheus = some text → (SocketAddress.parse? text).isSome

theorem backendComplaints_eq_nil (storage : StorageSection)
    : backendComplaints storage = []
      ↔ storage.provider = "memory"
        ∨ storage.provider = "redb" ∧ storage.databasePath.isSome := by
  unfold backendComplaints
  split
  next memory => simp [memory]
  next notMemory =>
    split
    next redb => simp [redb, Option.isSome_iff_ne_none]
    next notRedb => simp [notMemory, notRedb]

theorem exporterComplaints_eq_nil (prometheus : Option String)
    : exporterComplaints prometheus = []
      ↔ ∀ text, prometheus = some text → (SocketAddress.parse? text).isSome := by
  cases prometheus <;> simp [exporterComplaints, Option.isSome_iff_ne_none]

theorem complaints_eq_nil (written : Written) : written.complaints = [] ↔ written.IsSound := by
  simp only [complaints, periodComplaints, List.flatten_eq_nil_iff, List.forall_mem_cons,
    ite_eq_left_iff, reduceCtorEq, imp_false, Decidable.not_not,
    backendComplaints_eq_nil, exporterComplaints_eq_nil]
  constructor
  · rintro ⟨cluster, registrationTtl, storage, ttlCheck, interval, timeout, prometheus, -⟩
    exact ⟨cluster, registrationTtl, storage, ttlCheck, interval, timeout, prometheus⟩
  · rintro ⟨cluster, registrationTtl, storage, ttlCheck, interval, timeout, prometheus⟩
    exact ⟨cluster, registrationTtl, storage, ttlCheck, interval, timeout, prometheus, nofun⟩

theorem of_backend {storage : StorageSection} {place : Storage.BackendKind × Option String}
    (chosen : backend storage = .ok place)
    : place.1.name = storage.provider
      ∧ place.2 = if storage.provider = "redb" then storage.databasePath else none := by
  unfold backend at chosen
  split at chosen
  next memory =>
    cases chosen
    exact ⟨memory.symm, by rw [memory]; rfl⟩
  next redb =>
    split at chosen
    next path given =>
      cases chosen
      exact ⟨redb.symm, by rw [if_pos redb, given]⟩
    next => cases chosen
  next => cases chosen

theorem of_period {given : Option Nat} {fallback secs : Nat} {key : String}
    (checked : period given fallback key = .ok secs)
    : secs = given.getD fallback ∧ 0 < secs := by
  unfold period at checked
  split at checked
  next => cases checked
  next nonzero =>
    cases checked
    exact ⟨rfl, Nat.pos_of_ne_zero nonzero⟩

theorem of_exporter {prometheus : Option String} {address : Option SocketAddress}
    (read : exporter prometheus = .ok address)
    : address = prometheus.bind SocketAddress.parse? := by
  unfold exporter at read
  cases prometheus with
  | none =>
      cases read
      rfl
  | some text =>
      cases parsed : SocketAddress.parse? text with
      | none => simp [parsed] at read
      | some result =>
          simp only [parsed] at read
          cases read
          exact parsed.symm

/-- A configuration in use has what was written. What was left out has its default, and so has a
number of days that is zero. Only a database has a path.
-/
structure Carries (written : Written) (configuration : Configuration) : Prop where
  clusterName : configuration.clusterName = written.clusterName
  tableNamespace : configuration.tableNamespace = written.tableNamespace
  registrationTtl : configuration.registrationTtlSecs = written.cluster.registrationTtlSecs
  backend : configuration.storage.backend.name = written.storage.provider
  databasePath : configuration.storage.databasePath =
    if written.storage.provider = "redb" then written.storage.databasePath else none
  ttlDays : configuration.storage.ttlDays = (written.storage.ttlDays.filter (· ≠ 0)).getD 3
  ttlCheckInterval : configuration.storage.ttlCheckIntervalSecs =
    written.storage.ttlCheckIntervalSecs.getD 86400
  flushInterval : configuration.storage.flushIntervalSecs =
    written.storage.flushIntervalSecs.getD 1
  flushTimeout : configuration.storage.flushTimeoutSecs = written.storage.flushTimeoutSecs.getD 30
  strictMerge : configuration.storage.strictMerge = written.storage.strictMerge
  prometheus : configuration.prometheus = written.prometheus.bind SocketAddress.parse?

end Written

/-- A configuration in use without a number that is zero. -/
structure Configuration.IsPositive (configuration : Configuration) : Prop where
  registrationTtl : 1 ≤ configuration.registrationTtlSecs
  ttlDays : 1 ≤ configuration.storage.ttlDays
  ttlCheckInterval : 1 ≤ configuration.storage.ttlCheckIntervalSecs
  flushInterval : 1 ≤ configuration.storage.flushIntervalSecs
  flushTimeout : 1 ≤ configuration.storage.flushTimeoutSecs

namespace Written

variable {written : Written} {configuration : Configuration}

theorem effectiveTtlDays_getD (given : Option Nat)
    : Storage.effectiveTtlDays (given.getD 0) = (given.filter (· ≠ 0)).getD 3 := by
  cases given with
  | none => rfl
  | some days =>
      by_cases zero : days = 0 <;>
        simp [Storage.effectiveTtlDays, Storage.defaultTtlDays, Option.filter, zero]

theorem of_check (accepted : written.check = .ok configuration)
    : written.Carries configuration ∧ configuration.IsPositive := by
  rw [check_eq] at accepted
  obtain ⟨_, _, accepted⟩ := bind_eq_ok.mp accepted
  obtain ⟨_, ttl, accepted⟩ := bind_eq_ok.mp accepted
  obtain ⟨place, chosen, accepted⟩ := bind_eq_ok.mp accepted
  obtain ⟨ttlCheck, checked, accepted⟩ := bind_eq_ok.mp accepted
  obtain ⟨flushInterval, interval, accepted⟩ := bind_eq_ok.mp accepted
  obtain ⟨flushTimeout, timeout, accepted⟩ := bind_eq_ok.mp accepted
  obtain ⟨prometheus, read, accepted⟩ := bind_eq_ok.mp accepted
  cases accepted
  have registrationTtl : written.cluster.registrationTtlSecs ≠ 0 := by
    intro zero
    simp [zero] at ttl
  exact
    ⟨{
      clusterName := rfl
      tableNamespace := rfl
      registrationTtl := rfl
      backend := (of_backend chosen).1
      databasePath := (of_backend chosen).2
      ttlDays := effectiveTtlDays_getD _
      ttlCheckInterval := (of_period checked).1
      flushInterval := (of_period interval).1
      flushTimeout := (of_period timeout).1
      strictMerge := rfl
      prometheus := of_exporter read },
    {
      registrationTtl := Nat.pos_of_ne_zero registrationTtl
      ttlDays := Storage.effectiveTtlDays_pos _
      ttlCheckInterval := (of_period checked).2
      flushInterval := (of_period interval).2
      flushTimeout := (of_period timeout).2 }⟩

end Written

end Settings

-----------------------------------------------------------------------------------------
-- Timers
-----------------------------------------------------------------------------------------

/-- The tasks of an agenda, each with its period. -/
def Agenda.periods {τ : Type} (agenda : Agenda τ) : List (τ × Nat) :=
  agenda.tasks.map fun recurring => (recurring.task, recurring.period)

theorem Agenda.periods_arm {τ : Type} (agenda : Agenda τ) (task : τ) {period : Nat}
    (positive : 0 < period) (rhythm : Rhythm)
    : (agenda.arm task period rhythm).periods = agenda.periods ++ [(task, period)] := by
  simp [arm, positive, periods]

theorem Cluster.Network.periods_expireEvery (network : Network) (owner : String) {period : Duration}
    (positive : 0 < period)
    : (network.expireEvery owner period).agenda.periods =
        network.agenda.periods ++ [(.expire owner, period)] := by
  have armed := network.agenda.periods_arm (Chore.expire owner) positive .aligned
  unfold expireEvery
  rw [if_neg (Nat.ne_of_gt positive)]
  dsimp only
  -- The removal at the start touches the store alone, whether it succeeds or not.
  split
  next expired removed =>
    obtain ⟨_, _, left⟩ := bind_eq_ok.mp removed
    cases left
    exact armed
  next => exact armed

namespace Settings

open Cluster Collector

variable {configuration : Configuration}

/-- A configuration in use that arms every timer of a member with the period it gives. -/
structure Configuration.ArmsTimers (configuration : Configuration) : Prop where
  storage : ∀ member (site : Site), (site.storage.bind (·.runtime)).isSome →
    (notifyStorage member configuration.storage site).2.agenda.periods =
      site.agenda.periods ++
        [(.flush member, configuration.storage.flushIntervalSecs * 1000),
          (.sweep member, configuration.storage.ttlCheckIntervalSecs * 1000)]
  expiry : ∀ member manager (site : Site),
    let ttl := configuration.registrationTtlSecs * 1000
    ((clusterProvider member ttl).start manager site).2.network.agenda.periods =
      site.network.agenda.periods ++ [(.expire member, max (ttl / 3) leastExpiryPeriod)]
  renewal : 0 < { ttl := configuration.registrationTtlSecs * 1000 : NamingService }.renewalPeriod

theorem Configuration.IsPositive.armsTimers (positive : configuration.IsPositive)
    : configuration.ArmsTimers where
  storage member site started := by
    have flushing : 0 < configuration.storage.flushIntervalSecs * 1000 :=
      Nat.mul_pos positive.flushInterval (by decide)
    have sweeping : 0 < configuration.storage.ttlCheckIntervalSecs * 1000 :=
      Nat.mul_pos positive.ttlCheckInterval (by decide)
    change (if (site.storage.bind (·.runtime)).isSome then _ else site : Site).agenda.periods = _
    rw [if_pos started, Agenda.periods_arm _ _ sweeping, Agenda.periods_arm _ _ flushing,
      List.append_assoc]
    rfl
  expiry member manager site :=
    site.network.periods_expireEvery member
      (Nat.lt_of_lt_of_le (by decide) (Nat.le_max_right _ leastExpiryPeriod))
  renewal := by
    have lasting : 1 * 1000 ≤ configuration.registrationTtlSecs * 1000 :=
      Nat.mul_le_mul_right 1000 positive.registrationTtl
    exact Nat.div_pos (Nat.le_trans (by decide) lasting) (by decide)

namespace Written

/-- A configuration is accepted exactly if no part of it gives rise to a complaint, and otherwise
reported with the first complaint. An accepted one goes into use with what was written and with no
number that is zero, so that every timer is armed, and one for the memory takes no notice of a
database.
-/
theorem check_is_exact (written : Written)
    : ((∃ configuration, written.check = .ok configuration) ↔ written.IsSound)
      ∧ (∀ error, written.check = .error error ↔ written.complaints.head? = some error)
      ∧ (∀ configuration, written.check = .ok configuration →
        written.Carries configuration ∧ configuration.IsPositive ∧ configuration.ArmsTimers)
      ∧ (written.storage.provider = "memory" → ∀ path,
        { written with storage.databasePath := path }.check = written.check) := by
  have reports := reportsFirst_check written
  refine ⟨reports.exists_ok_iff.trans (complaints_eq_nil written), reports, ?_, ?_⟩
  · intro configuration accepted
    obtain ⟨carries, positive⟩ := of_check accepted
    exact ⟨carries, positive, positive.armsTimers⟩
  · intro memory path
    -- The database is read in one place only, the choice of the store.
    have place : backend { written.storage with databasePath := path }
        = backend written.storage := by
      unfold backend
      simp only [memory]
    rw [check_eq, check_eq written, place]
    rfl

-- Of the lifetime, the store and the address only the lifetime is reported.
example
    : let written : Written := {
        clusterName := "bench"
        cluster := { registrationTtlSecs := 0 }
        storage := { provider := "ram" }
        prometheus := some "nowhere" }
      written.check = .error .registrationTtlZero := by
  rfl

end Written

end Settings

end Telemetry
