import Telemetry.Proofs.Collector.ArchiveRuns

/-! Cycles in time are complete. The operations of a cycle are about different rows and suit the
rows that are there, so all of them are applied, and every staged record is written or could not be
prepared.
-/

namespace Telemetry.Collector

open Storage HasPlainForm

namespace Archive

variable {S : Type} [TableStore S]

-----------------------------------------------------------------------------------------
-- The batch of a cycle
-----------------------------------------------------------------------------------------

/-- The operations that a cycle drains from the table of a name. -/
def operations (archive : Archive S) (name : String) : List Operation :=
  ((archive.tables.get? name).map (·.operations archive.store)).getD []

def batch (archive : Archive S) : List Operation :=
  (TableSet.drain archive.store tableNames archive.tables).1

def pending {S : Type} (archive : Archive S) : Nat :=
  (tableNames.map fun name => ((archive.tables.get? name).map (·.worker.pending)).getD 0).sum

/-- The number of staged records for which there is no operation. -/
def unprepared (archive : Archive S) : Nat :=
  (tableNames.map fun name =>
    ((archive.tables.get? name).map (·.worker.unprepared archive.store)).getD 0).sum

theorem batch_eq (archive : Archive S) : archive.batch = tableNames.flatMap archive.operations :=
  TableSet.drain_operations archive.store nodup_tableNames archive.tables

/-- Every staged record becomes an operation of the batch or is lost. -/
theorem length_batch_add (archive : Archive S)
    : archive.batch.length + archive.unprepared = archive.pending := by
  unfold unprepared pending
  rw [batch_eq, List.length_flatMap, ← List.sum_map_add]
  congr 1
  refine List.map_congr_left fun name _ => ?_
  unfold operations
  cases archive.tables.get? name with
  | none => rfl
  | some table => exact table.worker.length_operations_add archive.store

namespace IsSound

variable {archive : Archive S}

/-- An operation of a table names the table, and is prepared for the record under its id. -/
theorem of_mem_operations (h : archive.IsSound) {name : String} {operation : Operation}
    (member : operation ∈ archive.operations name)
    : operation.table = name ∧ ∃ table record, archive.tables.get? name = some table
        ∧ table.worker.staged.get? operation.id = some record
        ∧ table.worker.prepare archive.store record = .ok operation := by
  unfold operations at member
  cases bound : archive.tables.get? name with
  | none => rw [bound] at member; cases member
  | some table =>
      rw [bound] at member
      obtain ⟨id, record, staged, prepared⟩ := Worker.mem_operations.mp member
      obtain ⟨own, identity⟩ := Worker.prepare_names prepared
      have about : operation.id = id := identity.trans ((h name table bound).keyed id record staged)
      exact ⟨own.trans (h name table bound).named, table, record, rfl, about ▸ staged, prepared⟩

theorem of_mem_batch (h : archive.IsSound) {operation : Operation}
    (member : operation ∈ archive.batch)
    : ∃ table record, archive.tables.get? operation.table = some table
        ∧ table.worker.staged.get? operation.id = some record
        ∧ table.worker.prepare archive.store record = .ok operation := by
  rw [batch_eq] at member
  obtain ⟨name, _, member⟩ := List.mem_flatMap.mp member
  obtain ⟨rfl, found⟩ := h.of_mem_operations member
  exact found

/-- The operation of a batch about a row is the one that is prepared for the record staged there. -/
theorem mem_batch_iff (h : archive.IsSound) {name id : String} {table : Table RecordKind.Carrier}
    (bound : archive.tables.get? name = some table) {operation : Operation}
    (about : operation.key = (name, id))
    : operation ∈ archive.batch
      ↔ ∃ record, table.worker.staged.get? id = some record
          ∧ table.worker.prepare archive.store record = .ok operation := by
  cases about
  constructor
  · intro member
    obtain ⟨found, record, boundFound, staged, prepared⟩ := h.of_mem_batch member
    cases bound.symm.trans boundFound
    exact ⟨record, staged, prepared⟩
  · rintro ⟨record, staged, prepared⟩
    rw [batch_eq, List.mem_flatMap]
    refine ⟨operation.table, (h _ table bound).mem_tableNames, ?_⟩
    unfold operations
    rw [bound]
    exact Worker.mem_operations.mpr ⟨_, record, staged, prepared⟩

/-- The operations of a batch are about different rows. -/
theorem nodup_batch (h : archive.IsSound) : (archive.batch.map (·.key)).Nodup := by
  rw [batch_eq, List.map_flatMap, List.nodup_flatMap]
  constructor
  -- Operations of one table differ in their ids, those of two tables in the names of the tables.
  · intro name _
    refine List.Nodup.of_map (·.2) ?_
    rw [List.map_map]
    unfold operations
    cases bound : archive.tables.get? name with
    | none => exact List.nodup_nil
    | some table => exact Worker.nodup_ids_operations (h name table bound).keyed
  · refine nodup_tableNames.imp fun {first second} differ key inFirst inSecond => ?_
    obtain ⟨operation, member, same⟩ := List.mem_map.mp inFirst
    obtain ⟨other, memberOther, sameOther⟩ := List.mem_map.mp inSecond
    have tables : operation.table = other.table :=
      congrArg Prod.fst (same.trans sameOther.symm)
    rw [(h.of_mem_operations member).1, (h.of_mem_operations memberOther).1] at tables
    exact differ tables

/-- The operations of a batch suit the rows that are there. -/
theorem suits_of_mem_batch [HasPlainForm S] (h : archive.IsSound) {operation : Operation}
    (member : operation ∈ archive.batch)
    : operation.Suits (stored? archive.store operation.table operation.id) := by
  obtain ⟨table, record, bound, staged, prepared⟩ := h.of_mem_batch member
  have suits := Worker.suits_of_prepare prepared
  rw [(h _ table bound).keyed _ record staged] at suits
  rw [show table.worker.descriptor.table = operation.table from (h _ table bound).named] at suits
  exact suits

/-- The batch of a cycle can be worked to its end. -/
theorem isStuck_batch [HasPlainForm S] (h : archive.IsSound)
    : (plain archive.store).isStuck archive.batch = false :=
  PlainStore.getStuck_of_suits _ _ h.nodup_batch _ fun _ member => h.suits_of_mem_batch member

/-- A cycle leaves nothing staged. -/
theorem pending_cycle (h : archive.IsSound) (timeout : Duration) (deadline : Deadline)
    {name : String} {table : Table RecordKind.Carrier}
    (found : (archive.cycle timeout deadline).archive.tables.get? name = some table)
    : table.worker.pending = 0 := by
  obtain ⟨before, bound, rfl⟩ := of_get?_cycle found
  rw [if_pos (h name before bound).mem_tableNames]
  rfl

end IsSound

-----------------------------------------------------------------------------------------
-- Cycles in time
-----------------------------------------------------------------------------------------

variable [HasPlainForm S]

/-- The cycle of a sound archive commits its batch unless it is dropped for its deadline, and
succeeds unless the answer is late.
-/
theorem IsSound.flush_batch {archive : Archive S} (h : archive.IsSound) (timeout : Duration)
    (deadline : Deadline)
    : (Pipeline.mk timeout archive.batch).commits deadline archive.store
        = (archive.batch.isEmpty || !(kind archive.store).drops deadline)
      ∧ (archive.cycle timeout deadline).result.isOk
        = (archive.batch.isEmpty || !(kind archive.store).isLate deadline) :=
  Pipeline.flush_of_suits h.nodup_batch fun _ member => h.suits_of_mem_batch member

/-- A cycle in time applies all of its batch. -/
theorem IsSound.result_cycle {archive : Archive S} (h : archive.IsSound) (timeout : Duration)
    {deadline : Deadline} (inTime : (kind archive.store).isLate deadline = false)
    : (archive.cycle timeout deadline).result = .ok ⟨archive.batch.length, []⟩ := by
  rw [← (plain archive.store).applyAll_of_suits h.nodup_batch
    fun operation member => h.suits_of_mem_batch member]
  exact Pipeline.result_flush ⟨timeout, archive.batch⟩ h.isStuck_batch inTime

/-- A cycle in time has no operation rejected, whatever happened before. Its batch has at most one
operation for each row, an insert exactly if there is no row and an update exactly if there is one.
Every staged record is written but those that cannot be prepared, and none stays behind.
-/
theorem cycle_is_complete (store : Backend) (mode : MergeMode) (steps : List ArchiveStep)
    (timeout : Duration) {deadline : Deadline}
    (inTime : (kind ((onStore store mode).run steps).store).isLate deadline = false)
    : let archive := (onStore store mode).run steps
      let cycle := archive.cycle timeout deadline
      cycle.result = .ok ⟨archive.batch.length, []⟩
      ∧ (archive.batch.map fun operation => (operation.table, operation.id)).Nodup
      ∧ (∀ operation ∈ archive.batch,
          (operation.kind = .insert ↔ archive.row? operation.table operation.id = .ok none)
          ∧ (operation.kind = .update ↔
            ∃ row, archive.row? operation.table operation.id = .ok (some row)))
      ∧ archive.batch.length + archive.unprepared = archive.pending
      ∧ ∀ name table, cycle.archive.tables.get? name = some table →
          table.worker.pending = 0 := by
  intro archive cycle
  have sound : archive.IsSound := (isSound_onStore store mode).run steps
  refine ⟨sound.result_cycle timeout inTime, sound.nodup_batch, fun operation member => ?_,
    archive.length_batch_add, fun name table found => sound.pending_cycle timeout deadline found⟩
  have suits := sound.suits_of_mem_batch member
  constructor
  · exact suits.insert_iff.trans row?_eq_ok_none_iff.symm
  · exact suits.update_iff.trans (exists_congr fun _ => row?_eq_ok_some_iff.symm)

/-- A row from elsewhere is updated and a new record inserted, while a heartbeat of an instance that
is not registered is lost.
-/
theorem cycle_is_complete_beside_lost_heartbeat
    : let mapping (id : String) : RecordKind.instanceMapping.Carrier :=
        ⟨[.string id, .string "m", .long 20240106, .integer 1, .integer 2, .integer 3], rfl⟩
      let heartbeat : RecordKind.instanceHeartBeat.Carrier :=
        ⟨[.string "i", .integer 3, .long 20240106], rfl⟩
      let steps : List ArchiveStep :=
        [.execute [⟨.insert, "day_instance_mapping", "a", (mapping "a").document⟩],
          .ingest .instanceMapping "day_instance_mapping" (mapping "a"),
          .ingest .instanceMapping "day_instance_mapping" (mapping "b"),
          .ingest .instanceHeartBeat "instance" heartbeat]
      let archive := (onStore (Backend.ofKind .database) .lenient).run steps
      archive.batch.map (fun operation => (operation.kind, operation.id))
          = [(.update, "a"), (.insert, "b")]
        ∧ archive.pending = 3 ∧ archive.unprepared = 1
        ∧ (archive.cycle 20000).result = .ok ⟨2, []⟩ := by
  intro mapping heartbeat steps archive
  have drained : archive.batch.map (fun operation => (operation.kind, operation.id))
      = [(.update, "a"), (.insert, "b")] := by
    decide +kernel
  have staged : archive.pending = 3 := by
    decide +kernel
  have inTime : (kind archive.store).isLate (.undelayed 20000) = false := by
    decide +kernel
  obtain ⟨result, _, _, all, _⟩ :=
    cycle_is_complete (Backend.ofKind .database) .lenient steps 20000 inTime
  have length : archive.batch.length = 2 := by
    simpa using congrArg List.length drained
  change archive.batch.length + archive.unprepared = archive.pending at all
  change (archive.cycle 20000).result = .ok ⟨archive.batch.length, []⟩ at result
  rw [length] at all result
  exact ⟨drained, staged, by omega, result⟩

end Archive

end Telemetry.Collector
