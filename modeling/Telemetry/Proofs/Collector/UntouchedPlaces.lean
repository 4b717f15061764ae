import Telemetry.Proofs.Collector.RecordIsolation

/-! Places of an archive that nothing is brought to any more. Cycles and batches leave the row of
such a place alone once the record staged there is written, so that the row stays until a sweep
takes it. A place where everything carries one time bucket keeps it.
-/

namespace Telemetry

namespace Storage

/-- A record that is staged where everything has its time bucket keeps that bucket. -/
theorem Worker.timeBucket_of_ingest {entity : Entity} (bucketed : entity.IsBucketed)
    {worker next : Worker (Record entity)} {record : Record entity} {what : Worker.Ingested}
    (same : ∀ earlier, worker.staged.get? record.id = some earlier →
      earlier.timeBucket = record.timeBucket)
    (ingested : worker.ingest record = .ok (what, next)) {held : Record entity}
    (staged : next.staged.get? record.id = some held)
    : held.timeBucket = record.timeBucket := by
  have own : record.id = StreamData.id record := rfl
  cases before : worker.staged.get? record.id with
  | none =>
      cases (Worker.ingest_of_absent before).symm.trans ingested
      rw [Worker.get?_staged_hold, if_pos own] at staged
      cases staged
      rfl
  | some earlier =>
      obtain ⟨merged, merges, made⟩ :=
        map_eq_ok.mp ((Worker.ingest_of_staged before).symm.trans ingested)
      cases made
      rw [Worker.get?_staged_hold, if_pos own] at staged
      cases staged
      exact (Record.timeBucket_of_merge bucketed merges).trans (same earlier before)

end Storage

namespace Collector

open Storage HasPlainForm

-----------------------------------------------------------------------------------------
-- Steps beside a place
-----------------------------------------------------------------------------------------

namespace ArchiveStep

/-- The step brings neither a record nor an operation from elsewhere to a place. -/
def Avoids (place : String × String) : ArchiveStep → Prop
  | .ingest _ table record => (table, record.id) ≠ place
  | .execute operations => ∀ operation ∈ operations, operation.key ≠ place
  | _ => True

/-- Whether a step may take a row from a table, as only elected sweeps do. -/
def takes (table : String) (row : Row) : ArchiveStep → Bool
  | .sweep view registration ttlDays now =>
      view.isElected registration && row.any (Archive.drops table (cutoff now ttlDays))
  | _ => false

end ArchiveStep

namespace Archive

variable {S : Type} [TableStore S] {archive : Archive S} {name id : String}

-----------------------------------------------------------------------------------------
-- Staged records
-----------------------------------------------------------------------------------------

theorem operation?_of_staged? (nothing : archive.staged? name id = none)
    : archive.operation? name id = none := by
  unfold staged? at nothing
  unfold operation?
  cases bound : archive.tables.get? name with
  | none => rfl
  | some table =>
      rw [bound] at nothing
      rw [Option.bind_some, Option.map_eq_none_iff.mp nothing]
      rfl

/-- A cycle leaves nothing staged anywhere. -/
theorem IsSound.staged?_cycle (h : archive.IsSound) (timeout : Duration) (deadline : Deadline)
    (name id : String)
    : (archive.cycle timeout deadline).archive.staged? name id = none := by
  unfold staged?
  cases found : (archive.cycle timeout deadline).archive.tables.get? name with
  | none => rfl
  | some table =>
      have empty : table.worker.staged.entries = [] :=
        List.eq_nil_of_length_eq_zero (h.pending_cycle timeout deadline found)
      simp only [Option.bind_some, KeyMap.get?, empty, List.lookup_nil, Option.map_none]

variable [HasPlainForm S]

/-- A record leaves everything beside its own place as it is. -/
theorem matches_ingest (archive : Archive S) (kind : RecordKind) (table : String)
    (record : kind.Carrier)
    : (archive.step (.ingest kind table record)).Matches (table, record.id) archive :=
  .of_ingest_hidden rfl archive

/-- A step that avoids a place leaves the record that is staged there, or nothing. -/
theorem IsSound.staged?_step (h : archive.IsSound) {step : ArchiveStep}
    (avoids : step.Avoids (name, id))
    : (archive.step step).staged? name id = archive.staged? name id
      ∨ (archive.step step).staged? name id = none := by
  cases step with
  | ingest kind table record =>
      exact .inl ((archive.matches_ingest kind table record).staged?_eq (Ne.symm avoids))
  | cycle timeout deadline => exact .inr (h.staged?_cycle timeout deadline name id)
  | sweep view registration ttlDays now => exact .inl rfl
  | execute operations => exact .inl rfl

theorem IsSound.staged?_step_eq_none (h : archive.IsSound) {step : ArchiveStep}
    (avoids : step.Avoids (name, id)) (nothing : archive.staged? name id = none)
    : (archive.step step).staged? name id = none := by
  rcases h.staged?_step avoids with same | gone
  · exact same.trans nothing
  · exact gone

-----------------------------------------------------------------------------------------
-- Tables
-----------------------------------------------------------------------------------------

/-- No step changes the rules of a table. -/
theorem descriptor?_step (archive : Archive S) (step : ArchiveStep) (name : String)
    : ((archive.step step).tables.get? name).map (·.descriptor)
      = (archive.tables.get? name).map (·.descriptor) := by
  cases step with
  | ingest kind table record =>
      exact (archive.matches_ingest kind table record).descriptor?_eq name
  | cycle timeout deadline =>
      have drained := TableSet.get?_drain archive.store tableNames archive.tables name
      refine (congrArg (Option.map Table.descriptor) drained).trans ?_
      split
      · exact Option.map_map ..
      · rfl
  | sweep view registration ttlDays now => rfl
  | execute operations => rfl

theorem HasAllTables.step (h : archive.HasAllTables) (step : ArchiveStep)
    : (archive.step step).HasAllTables := by
  intro table member
  obtain ⟨found, bound, same⟩ := h table member
  have kept := archive.descriptor?_step step table.2.table
  rw [bound, Option.map_some, same] at kept
  exact Option.map_eq_some_iff.mp kept

/-- Every run keeps all tables, by induction over its steps. -/
theorem HasAllTables.run (h : archive.HasAllTables) (steps : List ArchiveStep)
    : (archive.run steps).HasAllTables := by
  induction steps generalizing archive with
  | nil => exact h
  | cons step rest ih => exact ih (h.step step)

-----------------------------------------------------------------------------------------
-- Rows
-----------------------------------------------------------------------------------------

/-- A sweep takes the rows that the archive loses in it if it is elected. -/
theorem HasAllTables.stored?_sweep (h : archive.HasAllTables) (view : Cluster.View)
    (registration : Cluster.Registration) (ttlDays : Nat) (now : Instant) (name id : String)
    : stored? (archive.sweep view registration ttlDays now).archive.store name id
      = (stored? archive.store name id).filter fun row =>
          !(view.isElected registration && archive.loses name (cutoff now ttlDays) row) := by
  cases elected : view.isElected registration with
  | true =>
      have row := congrArg (KeyMap.get? · id) (rows_sweep h elected ttlDays now name)
      simp only [KeyMap.get?_filter] at row
      simp only [Bool.true_and]
      exact row
  | false =>
      rw [sweep_store, elected, if_neg Bool.false_ne_true]
      cases stored? archive.store name id <;> simp [Option.filter]

/-- A batch that avoids a place leaves the row there alone. -/
theorem stored?_execute_of_avoids (archive : Archive S) {operations : List Operation}
    (avoids : (ArchiveStep.execute operations).Avoids (name, id))
    : stored? (archive.step (.execute operations)).store name id
      = stored? archive.store name id := by
  have executed := stored?_execute archive.store operations .unlimited name id
  have none : operations.filter
        (·.concerns (plain archive.store).space ((plain archive.store).space.qualify name) id)
      = [] :=
    List.filter_eq_nil_iff.mpr fun operation member concerns =>
      avoids operation member (Operation.concerns_iff.mp concerns)
  rw [none] at executed
  exact executed.trans (ite_self _)

/-- A step that avoids a place without a staged record leaves the row there, or takes it. -/
theorem IsSound.stored?_step (h : archive.IsSound) (complete : archive.HasAllTables)
    {step : ArchiveStep} (avoids : step.Avoids (name, id))
    (nothing : archive.staged? name id = none)
    : stored? (archive.step step).store name id = stored? archive.store name id
      ∨ stored? (archive.step step).store name id = none
        ∧ ∃ row, stored? archive.store name id = some row ∧ step.takes name row = true := by
  cases step with
  | ingest kind table record =>
      exact .inl ((archive.matches_ingest kind table record).stored?_eq (Ne.symm avoids))
  | cycle timeout deadline =>
      have cycled := h.stored?_cycle timeout deadline name id
      rw [operation?_of_staged? nothing] at cycled
      exact .inl (cycled.trans (ite_self _))
  | sweep view registration ttlDays now =>
      have swept := complete.stored?_sweep view registration ttlDays now name id
      cases current : stored? archive.store name id with
      | none => exact .inl (swept.trans (by rw [current]; rfl))
      | some row =>
          rw [current, Option.filter_some] at swept
          split at swept
          next => exact .inl swept
          next lost =>
            rw [Bool.not_eq_true', Bool.not_eq_false, Bool.and_eq_true] at lost
            have dropped := ((Bool.and_eq_true _ _).mp lost.2).2
            exact .inr ⟨swept, row, rfl, (Bool.and_eq_true _ _).mpr ⟨lost.1, dropped⟩⟩
  | execute operations => exact .inl (stored?_execute_of_avoids archive avoids)

/-- Steps that avoid a place without a staged record leave the row there, or one of them takes it,
by induction over the steps.
-/
theorem IsSound.stored?_run (h : archive.IsSound) (complete : archive.HasAllTables)
    {steps : List ArchiveStep} (avoid : ∀ step ∈ steps, step.Avoids (name, id))
    (nothing : archive.staged? name id = none)
    : stored? (archive.run steps).store name id = stored? archive.store name id
      ∨ stored? (archive.run steps).store name id = none
        ∧ ∃ row, stored? archive.store name id = some row
          ∧ ∃ step ∈ steps, step.takes name row = true := by
  induction steps generalizing archive with
  | nil => exact .inl rfl
  | cons step rest ih =>
      have later := ih (h.step step) (complete.step step)
        (fun next member => avoid next (List.mem_cons_of_mem step member))
        (h.staged?_step_eq_none (avoid step List.mem_cons_self) nothing)
      rcases h.stored?_step complete (avoid step List.mem_cons_self) nothing with
        same | ⟨gone, row, held, taken⟩
      · rw [same] at later
        refine later.imp_right fun ⟨gone, row, held, next, member, taken⟩ => ?_
        exact ⟨gone, row, held, next, List.mem_cons_of_mem step member, taken⟩
      · rw [gone] at later
        have absent := later.elim (fun same => same) And.left
        exact .inr ⟨absent, row, held, step, List.mem_cons_self, taken⟩

-----------------------------------------------------------------------------------------
-- Time buckets
-----------------------------------------------------------------------------------------

/-- Everything at a place carries one time bucket: the record staged there and the row. -/
structure IsDated (archive : Archive S) (name id : String) (bucket : Int) : Prop where
  staged : ∀ record, archive.staged? name id = some record → record.2.timeBucket = bucket
  stored : ∀ row, stored? archive.store name id = some (some row) →
    bucket? row "time_bucket" = some bucket

theorem isDated_of_unused {bucket : Int} (noRecord : archive.staged? name id = none)
    (noRow : stored? archive.store name id = none)
    : archive.IsDated name id bucket where
  staged _ shown := by cases noRecord.symm.trans shown
  stored _ current := by cases noRow.symm.trans current

section

variable {kind : RecordKind} {descriptor : Descriptor} {retention : Retention} {bucket : Int}

/-- An operation that a cycle drains for a place is applied there. In a table with retention the
row has a time bucket then, that of the place if it has one.
-/
theorem IsSound.written_of_operation? (h : archive.IsSound)
    (listed : (kind, descriptor) ∈ allTables) (kept : descriptor.retention = some retention)
    {operation : Operation} (drained : archive.operation? descriptor.table id = some operation)
    : ∃ row found, operation.after (HasPlainForm.kind archive.store).row
          (stored? archive.store descriptor.table id) = some (some row)
        ∧ bucket? row "time_bucket" = some found
        ∧ ∀ bucket, archive.IsDated descriptor.table id bucket → found = bucket := by
  obtain ⟨table, bound, more⟩ := Option.bind_eq_some_iff.mp drained
  obtain ⟨record, staged, prepared⟩ := Option.bind_eq_some_iff.mp more
  have prepared := ok_of_toOption prepared
  have own := h _ table bound
  have rules : (table.kind, table.descriptor) = (kind, descriptor) :=
    eq_of_tableName own.listed listed own.named
  have kept : table.descriptor.retention = some retention :=
    (congrArg (fun one => one.2.retention) rules).trans kept
  obtain ⟨_, whole, bucketed⟩ := bucketed_of_retention own.listed kept
  have place : stored? archive.store table.worker.descriptor.table record.id
      = stored? archive.store descriptor.table id := by
    rw [show table.worker.descriptor.table = descriptor.table from own.named,
      own.keyed id record staged]
  obtain ⟨row, written⟩ := Worker.exists_written_of_prepare prepared
  obtain ⟨found, read⟩ := Worker.exists_bucket?_written bucketed whole prepared _ written
  have dated := Worker.bucket?_written bucketed whole prepared _ written
  rw [place] at written dated
  refine ⟨row, found, by rw [Operation.after, written], read, fun bucket one => ?_⟩
  rw [read] at dated
  rcases before : stored? archive.store descriptor.table id with _ | _ | earlier
  · rw [before] at dated
    have shown : archive.staged? descriptor.table id = some ⟨table.kind, record⟩ := by
      simp only [staged?, bound, Option.bind_some, staged, Option.map_some]
    exact (Option.some.inj dated).trans (one.staged _ shown)
  · rw [before] at dated
    cases dated
  · rw [before] at dated
    exact Option.some.inj (dated.trans (one.stored earlier before))

/-- A cycle that is not dropped for its deadline leaves a row with a time bucket where it drains an
operation.
-/
theorem IsSound.exists_row_of_cycle (h : archive.IsSound)
    (listed : (kind, descriptor) ∈ allTables) (kept : descriptor.retention = some retention)
    {operation : Operation} (drained : archive.operation? descriptor.table id = some operation)
    (timeout : Duration) {deadline : Deadline}
    (inTime : (HasPlainForm.kind archive.store).drops deadline = false)
    : ∃ row found, stored? (archive.cycle timeout deadline).archive.store descriptor.table id
          = some (some row)
        ∧ bucket? row "time_bucket" = some found
        ∧ ∀ bucket, archive.IsDated descriptor.table id bucket → found = bucket := by
  have cycled := h.stored?_cycle timeout deadline descriptor.table id
  rw [drained, inTime] at cycled
  obtain ⟨row, found, after, read, dated⟩ := h.written_of_operation? listed kept drained
  exact ⟨row, found, cycled.trans after, read, dated⟩

/-- A record with the time bucket of a place keeps it. -/
theorem IsDated.ingest {record : kind.Carrier}
    (dated : archive.IsDated descriptor.table record.id record.timeBucket)
    (bucketed : kind.entity.IsBucketed) {answer : List Measurement × Archive S}
    (ingested : archive.ingest kind descriptor.table record = .ok answer)
    : answer.2.IsDated descriptor.table record.id record.timeBucket := by
  cases found : archive.worker? kind descriptor.table with
  | none =>
      rw [ingest_of_no_worker found] at ingested
      cases ingested
  | some worker =>
      have bound := worker?_eq_some found
      rw [ingest_of_worker found] at ingested
      obtain ⟨⟨what, next⟩, taken, rfl⟩ := map_eq_ok.mp ingested
      refine ⟨fun held shown => ?_, dated.stored⟩
      simp only [staged?, KeyMap.get?_insert, if_pos, Option.bind_some] at shown
      obtain ⟨merged, staged, rfl⟩ := Option.map_eq_some_iff.mp shown
      refine Worker.timeBucket_of_ingest bucketed (fun earlier before => ?_) taken staged
      exact dated.staged ⟨kind, earlier⟩ (by simp [staged?, bound, before])

/-- A cycle keeps the time bucket of a place. -/
theorem IsDated.cycle (dated : archive.IsDated descriptor.table id bucket) (h : archive.IsSound)
    (listed : (kind, descriptor) ∈ allTables) (kept : descriptor.retention = some retention)
    (timeout : Duration) (deadline : Deadline)
    : (archive.cycle timeout deadline).archive.IsDated descriptor.table id bucket where
  staged record shown := by
    rw [h.staged?_cycle timeout deadline] at shown
    cases shown
  stored row current := by
    have cycled := h.stored?_cycle timeout deadline descriptor.table id
    split at cycled
    · exact dated.stored row (cycled.symm.trans current)
    · cases drained : archive.operation? descriptor.table id with
      | none =>
          rw [drained] at cycled
          exact dated.stored row (cycled.symm.trans current)
      | some operation =>
          obtain ⟨written, found, after, read, same⟩ :=
            h.written_of_operation? listed kept drained
          rw [drained] at cycled
          cases current.symm.trans (cycled.trans after)
          rw [read, same bucket dated]

/-- A step that avoids a place keeps its time bucket. -/
theorem IsDated.step (dated : archive.IsDated descriptor.table id bucket) (h : archive.IsSound)
    (complete : archive.HasAllTables) (listed : (kind, descriptor) ∈ allTables)
    (kept : descriptor.retention = some retention) {step : ArchiveStep}
    (avoids : step.Avoids (descriptor.table, id))
    : (archive.step step).IsDated descriptor.table id bucket := by
  have staged (record) (shown : (archive.step step).staged? descriptor.table id = some record)
      : record.2.timeBucket = bucket := by
    rcases h.staged?_step avoids with same | gone
    · exact dated.staged record (same.symm.trans shown)
    · rw [gone] at shown
      cases shown
  cases step with
  | ingest own table record =>
      have same := (archive.matches_ingest own table record).stored?_eq (Ne.symm avoids)
      exact ⟨staged, fun row current => dated.stored row (same.symm.trans current)⟩
  | cycle timeout deadline => exact dated.cycle h listed kept timeout deadline
  | sweep view registration ttlDays now =>
      refine ⟨staged, fun row current => dated.stored row ?_⟩
      have swept := complete.stored?_sweep view registration ttlDays now descriptor.table id
      exact (Option.filter_eq_some_iff.mp (swept.symm.trans current)).1
  | execute operations =>
      have same := stored?_execute_of_avoids archive avoids
      exact ⟨staged, fun row current => dated.stored row (same.symm.trans current)⟩

/-- Steps that avoid a place keep its time bucket, by induction over the steps. -/
theorem IsDated.run (dated : archive.IsDated descriptor.table id bucket) (h : archive.IsSound)
    (complete : archive.HasAllTables) (listed : (kind, descriptor) ∈ allTables)
    (kept : descriptor.retention = some retention) {steps : List ArchiveStep}
    (avoid : ∀ step ∈ steps, step.Avoids (descriptor.table, id))
    : (archive.run steps).IsDated descriptor.table id bucket := by
  induction steps generalizing archive with
  | nil => exact dated
  | cons step rest ih =>
      have next := dated.step h complete listed kept (avoid step List.mem_cons_self)
      exact ih next (h.step step) (complete.step step)
        fun later member => avoid later (List.mem_cons_of_mem step member)

end

end Archive

end Collector

end Telemetry
