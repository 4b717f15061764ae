import Telemetry.Proofs.Collector.RetentionHorizon
import Telemetry.Proofs.Storage.DrainedBatches

/-! What an archive keeps through every order of ingests, cycles, sweeps and batches from elsewhere:
its tables stay those that were set up, each under its own name, and records stay staged under their
own identities.
-/

namespace Telemetry.Collector

open Storage

-----------------------------------------------------------------------------------------
-- Runs
-----------------------------------------------------------------------------------------

/-- What may happen to an archive. Batches can come from elsewhere, and an ingest that fails changes
nothing.
-/
inductive ArchiveStep where
  | ingest (kind : RecordKind) (table : String) (record : kind.Carrier)
  | cycle (timeout : Duration) (deadline : Deadline)
  | sweep (view : Cluster.View) (registration : Cluster.Registration) (ttlDays : Nat)
    (now : Instant)
  | execute (operations : List Operation)

namespace Archive

variable {S : Type} [TableStore S]

def step (archive : Archive S) : ArchiveStep → Archive S
  | .ingest kind table record =>
      ((archive.ingest kind table record).toOption.map (·.2)).getD archive
  | .cycle timeout deadline => (archive.cycle timeout deadline).archive
  | .sweep view registration ttlDays now => (archive.sweep view registration ttlDays now).archive
  | .execute operations => (archive.execute operations).2

def run (archive : Archive S) (steps : List ArchiveStep) : Archive S :=
  steps.foldl step archive

theorem step_of_ingest {archive : Archive S} {kind : RecordKind} {table : String}
    {record : kind.Carrier} {answer : List Measurement × Archive S}
    (ingested : archive.ingest kind table record = .ok answer)
    : archive.step (.ingest kind table record) = answer.2 := by
  simp [step, ingested, Except.toOption]

end Archive

-----------------------------------------------------------------------------------------
-- What every step preserves
-----------------------------------------------------------------------------------------

/-- Whether a table is one that is set up under a name, with all records staged under their own
identities.
-/
structure IsSetUp (table : Table RecordKind.Carrier) (name : String) : Prop where
  listed : (table.kind, table.descriptor) ∈ allTables
  named : table.descriptor.table = name
  keyed : table.worker.IsKeyed

namespace IsSetUp

variable {table : Table RecordKind.Carrier} {name : String}

theorem mem_tableNames (h : IsSetUp table name) : name ∈ tableNames :=
  h.named ▸ List.mem_map_of_mem h.listed

theorem cleared (h : IsSetUp table name) : IsSetUp table.cleared name :=
  ⟨h.listed, h.named, table.worker.isKeyed_cleared⟩

end IsSetUp

namespace Archive

/-- Whether all tables of an archive are set up under their names. -/
def IsSound {S : Type} (archive : Archive S) : Prop :=
  ∀ name table, archive.tables.get? name = some table → IsSetUp table name

/-- The tables of a new archive are those that are set up, with nothing staged. -/
theorem of_get?_onStore {S : Type} {store : S} {mode : MergeMode} {name : String}
    {table : Table RecordKind.Carrier} (found : (onStore store mode).tables.get? name = some table)
    : ∃ one ∈ allTables, one.2.table = name ∧ table = ⟨one.1, { descriptor := one.2, mode }⟩ := by
  have names : ((allTables.map fun table => (table.2.table,
      (⟨table.1, { descriptor := table.2, mode }⟩ : Table RecordKind.Carrier))).map (·.1)).Nodup :=
    List.map_map ▸ nodup_tableNames
  rw [onStore, KeyMap.get?_ofList names] at found
  obtain ⟨one, listed, made⟩ := List.mem_map.mp (KeyMap.mem_of_lookup found)
  cases made
  exact ⟨one, listed, rfl, rfl⟩

theorem isSound_onStore {S : Type} (store : S) (mode : MergeMode)
    : (onStore store mode).IsSound := by
  intro name table found
  obtain ⟨one, listed, rfl, rfl⟩ := of_get?_onStore found
  exact ⟨listed, rfl, Worker.isKeyed_cleared { descriptor := one.2, mode }⟩

/-- A worker is found in the table of its name. -/
theorem worker?_eq_some {S : Type} {archive : Archive S} {kind : RecordKind} {name : String}
    {worker : Worker kind.Carrier} (h : archive.worker? kind name = some worker)
    : archive.tables.get? name = some ⟨kind, worker⟩ := by
  obtain ⟨⟨own, staging⟩, found, h⟩ := Option.bind_eq_some_iff.mp h
  split at h
  next same =>
    have same : own = kind := same
    subst same
    cases h
    exact found
  next => cases h

/-- A cycle clears the tables that are set up. -/
theorem of_get?_cycle {S : Type} [TableStore S] {archive : Archive S} {timeout : Duration}
    {deadline : Deadline} {name : String} {table : Table RecordKind.Carrier}
    (found : (archive.cycle timeout deadline).archive.tables.get? name = some table)
    : ∃ before, archive.tables.get? name = some before
        ∧ table = if name ∈ tableNames then before.cleared else before := by
  have drained := TableSet.get?_drain archive.store tableNames archive.tables name
  rw [show (TableSet.drain archive.store tableNames archive.tables).2.get? name = some table
    from found] at drained
  split at drained
  next listed =>
    obtain ⟨before, bound, rfl⟩ := Option.map_eq_some_iff.mp drained.symm
    exact ⟨before, bound, (if_pos listed).symm⟩
  next absent => exact ⟨table, drained.symm, (if_neg absent).symm⟩

namespace IsSound

variable {S : Type} {archive : Archive S}

theorem ingest (h : archive.IsSound) {kind : RecordKind} {name : String} {record : kind.Carrier}
    {answer : List Measurement × Archive S}
    (ingested : archive.ingest kind name record = .ok answer)
    : answer.2.IsSound := by
  unfold Archive.ingest at ingested
  cases found : archive.worker? kind name with
  | none => rw [found] at ingested; cases ingested
  | some worker =>
      rw [found] at ingested
      obtain ⟨⟨what, next⟩, staged, made⟩ := bind_eq_ok.mp ingested
      have own := h name _ (worker?_eq_some found)
      obtain ⟨descriptor, keyed⟩ := own.keyed.ingest staged
      have setUp : IsSetUp ⟨kind, next⟩ name := by
        refine ⟨?_, ?_, keyed⟩
        · change (kind, next.descriptor) ∈ allTables
          rw [descriptor]
          exact own.listed
        · exact (congrArg Descriptor.table descriptor).trans own.named
      cases made
      intro other table bound
      rw [KeyMap.get?_insert] at bound
      split at bound
      next same => cases bound; exact same ▸ setUp
      next => exact h other table bound

variable [TableStore S]

theorem cycle (h : archive.IsSound) (timeout : Duration) (deadline : Deadline)
    : (archive.cycle timeout deadline).archive.IsSound := by
  intro name table found
  obtain ⟨before, bound, rfl⟩ := of_get?_cycle found
  split
  · exact (h name before bound).cleared
  · exact h name before bound

/-- Every step keeps an archive sound. -/
theorem step (h : archive.IsSound) (step : ArchiveStep) : (archive.step step).IsSound := by
  cases step with
  | ingest kind name record =>
      simp only [Archive.step]
      cases ingested : archive.ingest kind name record with
      | error error => exact h
      | ok answer => exact h.ingest ingested
  | cycle timeout deadline => exact h.cycle timeout deadline
  | sweep view registration ttlDays now => exact h
  | execute operations => exact h

/-- Every run keeps an archive sound, by induction over its steps. -/
theorem run (h : archive.IsSound) (steps : List ArchiveStep) : (archive.run steps).IsSound := by
  induction steps generalizing archive with
  | nil => exact h
  | cons step rest ih => exact ih (h.step step)

end IsSound

end Archive

end Telemetry.Collector
