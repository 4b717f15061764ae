import Telemetry.Proofs.Collector.BucketedRows
import Telemetry.Proofs.Collector.CompleteCycles

/-! Deletions of history beside a cycle. A row that a deletion spares, with no staged record that it
would take, comes out of the cycle the same wherever the deletion falls, and its operation is
applied even if others of the batch have lost their rows.
-/

namespace Telemetry.Collector

open Storage HasPlainForm

-----------------------------------------------------------------------------------------
-- Rows that deletions spare
-----------------------------------------------------------------------------------------

/-- Tables with retention hold whole records that are dated by their time buckets. -/
theorem bucketed_of_retention {one : RecordKind × Descriptor} (listed : one ∈ allTables)
    {retention : Retention} (kept : one.2.retention = some retention)
    : retention.column = "time_bucket" ∧ one.2.updateColumns = none
      ∧ one.1.entity.IsBucketed := by
  have all : ∀ one ∈ allTables, ∀ retention, one.2.retention = some retention →
      retention.column = "time_bucket" ∧ one.2.updateColumns = none
        ∧ one.1.entity.IsBucketed := by
    decide
  exact all one listed retention kept

/-- A row is spared if its time bucket is not covered. -/
theorem IsSetUp.drops_eq_false {table : Table RecordKind.Carrier} {name : String}
    (h : IsSetUp table name) {startMillis endMillis : Int} {row : Document}
    (live : ∀ bucket, bucket? row "time_bucket" = some bucket →
      table.descriptor.covers startMillis endMillis bucket = false)
    : table.descriptor.drops startMillis endMillis row = false := by
  refine Bool.eq_false_iff.mpr fun dropped => ?_
  obtain ⟨bucket, read, covered⟩ := (Descriptor.drops_eq_true_iff
    (fun _ kept => (bucketed_of_retention h.listed kept).1) row).mp dropped
  rw [live bucket read] at covered
  cases covered

namespace Archive

variable {S : Type} [TableStore S]

-----------------------------------------------------------------------------------------
-- Deletions
-----------------------------------------------------------------------------------------

/-- Deletes the history of a range of instants from the tables of some names. -/
def deleteHistory (archive : Archive S) (names : List String) (startMillis endMillis : Int)
    (store : S)
    : S :=
  (Target.callAll startMillis endMillis (TableSet.targets S archive.tables names) store).2

section

variable [HasPlainForm S] {archive : Archive S}

/-- A deletion prunes the rows of its tables. -/
theorem plain_deleteHistory (archive : Archive S) (names : List String)
    (startMillis endMillis : Int) (store : S)
    : plain (archive.deleteHistory names startMillis endMillis store)
      = { plain store with
          rows := (plain store).rows.pruneAll (plain store).space startMillis endMillis
            (names.filterMap fun name => (archive.tables.get? name).map (·.descriptor)) } := by
  have targets : TableSet.targets S archive.tables names
      = (names.filterMap fun name => (archive.tables.get? name).map (·.descriptor)).map
          Descriptor.target := by
    rw [List.map_filterMap]
    refine List.filterMap_congr fun name _ => ?_
    cases archive.tables.get? name <;> rfl
  unfold deleteHistory
  rw [targets]
  have pruned := state_callAll_plain startMillis endMillis (plain store)
    (names.filterMap fun name => (archive.tables.get? name).map (·.descriptor))
  rw [callAll_eq_plain] at pruned
  exact pruned

theorem kind_deleteHistory (archive : Archive S) (names : List String)
    (startMillis endMillis : Int) (store : S)
    : kind (archive.deleteHistory names startMillis endMillis store) = kind store := by
  unfold kind
  rw [plain_deleteHistory]

/-- A deletion takes rows or leaves them as they are. -/
theorem stored?_deleteHistory_cases (archive : Archive S) (names : List String)
    (startMillis endMillis : Int) (store : S) (name id : String)
    : stored? (archive.deleteHistory names startMillis endMillis store) name id
        = stored? store name id
      ∨ stored? (archive.deleteHistory names startMillis endMillis store) name id = none := by
  unfold stored? tableRows
  rw [plain_deleteHistory]
  dsimp only
  rw [Rows.get?_pruneAll]
  cases ((plain store).rows ((plain store).space.qualify name)).get? id with
  | none => exact .inr rfl
  | some row => rw [Option.filter_some]; exact ite_eq_or_eq _ _ _

/-- A deletion leaves every row that its table does not drop. -/
theorem IsSound.stored?_deleteHistory (h : archive.IsSound) {name id : String}
    {table : Table RecordKind.Carrier} (bound : archive.tables.get? name = some table)
    (names : List String) {startMillis endMillis : Int} {store : S}
    (spared : ∀ row, stored? store name id = some (some row) →
      table.descriptor.drops startMillis endMillis row = false)
    : stored? (archive.deleteHistory names startMillis endMillis store) name id
      = stored? store name id := by
  have pruned := Rows.get?_pruneAll (plain store).rows (plain store).space startMillis endMillis
    (names.filterMap fun name => (archive.tables.get? name).map (·.descriptor))
    ((plain store).space.qualify name) id
  unfold stored? tableRows at spared ⊢
  rw [plain_deleteHistory]
  refine pruned.trans ?_
  cases current : ((plain store).rows ((plain store).space.qualify name)).get? id with
  | none => rfl
  | some row =>
      refine Option.filter_some.trans (if_pos ?_)
      refine List.all_eq_true.mpr fun descriptor listed => ?_
      obtain ⟨other, _, made⟩ := List.mem_filterMap.mp listed
      obtain ⟨found, boundFound, rfl⟩ := Option.map_eq_some_iff.mp made
      by_cases same : other = name
      · subst same
        cases bound.symm.trans boundFound
        cases row with
        | none => simp [Rows.loses]
        | some document => simp [Rows.loses, spared document current]
      · have differ : found.descriptor.table ≠ name := (h other found boundFound).named ▸ same
        simp [Namespace.qualify_inj, differ]

end

end Archive

-----------------------------------------------------------------------------------------
-- Cycles with a deletion
-----------------------------------------------------------------------------------------

/-- Where a deletion falls in a cycle. -/
inductive Placement where
  | beforeDrain | beforeFlush | afterFlush
  deriving DecidableEq

/-- What a cycle with a deletion came to. -/
structure DisturbedCycle (S : Type) where
  batch : List Operation
  result : Except Error Outcome
  store : S

/-- Whether a cycle serves a row as the archive asks for: it drains the operation for what is staged
there, applies it to the row that is there, and else leaves the row alone.
-/
structure DisturbedCycle.Serves {S : Type} [TableStore S] [HasPlainForm S]
    (run : DisturbedCycle S) (archive : Archive S) (name id : String) : Prop where
  drained : ∀ operation, operation.key = (name, id) →
    (operation ∈ run.batch ↔ operation ∈ archive.batch)
  accepted : ∃ outcome, run.result = .ok outcome
    ∧ ∀ failed ∈ outcome.failed, (failed.table, failed.id) ≠ (name, id)
  applied : ∀ operation ∈ archive.batch, operation.key = (name, id) →
    ∃ row, operation.written (kind archive.store).row (stored? archive.store name id) = .ok row
      ∧ stored? run.store name id = some row
  unchanged : (¬∃ operation ∈ archive.batch, operation.key = (name, id)) →
    stored? run.store name id = stored? archive.store name id

namespace Archive

variable {S : Type} [TableStore S]

/-- Flushes the operations of a batch as a cycle does. -/
def flushed (timeout : Duration) (deadline : Deadline) (batch : List Operation) (store : S)
    : DisturbedCycle S :=
  let pipeline := Pipeline.extend ⟨timeout, []⟩ batch
  let flush := pipeline.flush BatchSink.store deadline store
  ⟨batch, flush.result, flush.state⟩

def disturbedCycle (archive : Archive S) (timeout : Duration) (deadline : Deadline)
    (delete : S → S)
    : Placement → DisturbedCycle S
  | .beforeDrain =>
      let archive := { archive with store := delete archive.store }
      let cycle := archive.cycle timeout deadline
      ⟨archive.batch, cycle.result, cycle.archive.store⟩
  | .beforeFlush => flushed timeout deadline archive.batch (delete archive.store)
  | .afterFlush =>
      let cycle := archive.cycle timeout deadline
      ⟨archive.batch, cycle.result, delete cycle.archive.store⟩

/-- A cycle flushes what it drains. -/
theorem flushed_batch (archive : Archive S) (timeout : Duration) (deadline : Deadline)
    : flushed timeout deadline archive.batch archive.store
      = ⟨archive.batch, (archive.cycle timeout deadline).result,
          (archive.cycle timeout deadline).archive.store⟩ := by
  unfold flushed cycle TableSet.cycle batch
  rfl

end Archive

namespace DisturbedCycle.Serves

variable {S : Type} [TableStore S] [HasPlainForm S]
variable {run other : DisturbedCycle S} {archive : Archive S} {name id : String}

/-- The final row is the same in all cycles that serve it. -/
theorem stored?_eq (h : run.Serves archive name id) (too : other.Serves archive name id)
    : stored? run.store name id = stored? other.store name id := by
  by_cases some : ∃ operation ∈ archive.batch, operation.key = (name, id)
  · obtain ⟨operation, member, about⟩ := some
    obtain ⟨row, written, current⟩ := h.applied operation member about
    obtain ⟨same, writtenToo, currentToo⟩ := too.applied operation member about
    cases written.symm.trans writtenToo
    rw [current, currentToo]
  · rw [h.unchanged some, too.unchanged some]

/-- A change to the store that leaves the row alone does no harm. -/
theorem after (h : run.Serves archive name id) {store : S}
    (same : stored? store name id = stored? run.store name id)
    : Serves ⟨run.batch, run.result, store⟩ archive name id where
  drained := h.drained
  accepted := h.accepted
  applied operation member about := by
    obtain ⟨row, written, current⟩ := h.applied operation member about
    exact ⟨row, written, same.trans current⟩
  unchanged none := same.trans (h.unchanged none)

end DisturbedCycle.Serves

namespace Archive

variable {S : Type} [TableStore S] [HasPlainForm S] {archive : Archive S} {name id : String}

/-- What is drained for a row depends on that row alone. Other operations of the two batches may
differ, since a deletion can take their rows.
-/
theorem IsSound.mem_batch_iff_of_same (h : archive.IsSound) {table : Table RecordKind.Carrier}
    (bound : archive.tables.get? name = some table) {other : S}
    (same : stored? other name id = stored? archive.store name id) {operation : Operation}
    (about : operation.key = (name, id))
    : operation ∈ ({ archive with store := other } : Archive S).batch
      ↔ operation ∈ archive.batch := by
  have sound : ({ archive with store := other } : Archive S).IsSound := h
  rw [h.mem_batch_iff bound about]
  refine (sound.mem_batch_iff bound about).trans ?_
  refine exists_congr fun record => and_congr_right fun staged => ?_
  have own : stored? other table.worker.descriptor.table record.id
      = stored? archive.store table.worker.descriptor.table record.id := by
    rw [show table.worker.descriptor.table = name from (h name table bound).named,
      (h name table bound).keyed id record staged]
    exact same
  rw [Worker.prepare_congr own]

/-- A row that an operation has to read is still there, or its loss makes the operation fail. -/
theorem IsSound.isStuck_batch_of_losses (h : archive.IsSound) {store : S}
    (losses : ∀ name id, stored? store name id = stored? archive.store name id
      ∨ stored? store name id = none)
    : (plain store).isStuck archive.batch = false := by
  refine (PlainStore.getStuck_eq_any _ _ h.nodup_batch _).trans ?_
  refine List.any_eq_false.mpr fun operation member => Bool.eq_false_iff.mp ?_
  have current : operation.row? (plain store).space (plain store).rows
      = stored? store operation.table operation.id := rfl
  rw [current]
  rcases losses operation.table operation.id with same | gone
  · rw [same]
    exact (h.suits_of_mem_batch member).not_isStuck
  · rw [gone]
    rfl

/-- Flushing in time what was drained serves a row that is the same at the drain and the flush as in
the archive, if nothing but losses of rows happens in between.
-/
theorem IsSound.serves (h : archive.IsSound) {table : Table RecordKind.Carrier}
    (bound : archive.tables.get? name = some table) (timeout : Duration) {deadline : Deadline}
    (inTime : (kind archive.store).isLate deadline = false) {atDrain atFlush : S}
    (ofKind : kind atFlush = kind archive.store)
    (losses : ∀ name id, stored? atFlush name id = stored? atDrain name id
      ∨ stored? atFlush name id = none)
    (sameAtDrain : stored? atDrain name id = stored? archive.store name id)
    (sameAtFlush : stored? atFlush name id = stored? archive.store name id)
    : (flushed timeout deadline ({ archive with store := atDrain } : Archive S).batch
        atFlush).Serves archive name id := by
  let batch := ({ archive with store := atDrain } : Archive S).batch
  have sound : ({ archive with store := atDrain } : Archive S).IsSound := h
  have drained (operation : Operation) (about : operation.key = (name, id))
      : operation ∈ batch ↔ operation ∈ archive.batch :=
    h.mem_batch_iff_of_same bound sameAtDrain about
  have timely : (kind atFlush).isLate deadline = false := ofKind ▸ inTime
  have free : (plain atFlush).isStuck batch = false := sound.isStuck_batch_of_losses losses
  have committed : (Pipeline.mk timeout batch).commits deadline atFlush = true := by
    simp [Pipeline.commits_eq, executes, free, BackendKind.drops_of_isLate timely]
  have suit (operation : Operation) (member : operation ∈ batch)
      (about : operation.key = (name, id))
      : operation.Suits (stored? atFlush operation.table operation.id) := by
    cases about
    rw [sameAtFlush, ← sameAtDrain]
    exact sound.suits_of_mem_batch member
  refine ⟨drained, ⟨_, Pipeline.result_flush _ free timely, ?_⟩, fun operation member about => ?_,
    fun none => ?_⟩
  · exact (plain atFlush).not_failed_of_suits sound.nodup_batch suit
  · have inBatch := (drained operation about).mpr member
    obtain ⟨row, written⟩ := (suit operation inBatch about).written (kind archive.store).row
    have current : stored? (flushed timeout deadline batch atFlush).store operation.table
          operation.id = _ :=
      Pipeline.stored?_flush_of_mem committed sound.nodup_batch inBatch
    cases about
    rw [sameAtFlush] at written current
    refine ⟨row, written, current.trans ?_⟩
    rw [Operation.after, ofKind, written]
  · refine (Pipeline.stored?_flush_of_notMem fun operation member about => ?_).trans sameAtFlush
    exact none ⟨operation, (drained operation about).mp member, about⟩

-----------------------------------------------------------------------------------------
-- Cycles beside deletions
-----------------------------------------------------------------------------------------

/-- What becomes of a row that is served is spared if the row and the staged record are. -/
theorem IsSound.spared_of_serves (h : archive.IsSound) {table : Table RecordKind.Carrier}
    (bound : archive.tables.get? name = some table) {startMillis endMillis : Int}
    (rowLive : ∀ row bucket, stored? archive.store name id = some (some row) →
      bucket? row "time_bucket" = some bucket →
      table.descriptor.covers startMillis endMillis bucket = false)
    (recordLive : ∀ record, table.worker.staged.get? id = some record →
      table.descriptor.covers startMillis endMillis record.timeBucket = false)
    {run : DisturbedCycle S} (serves : run.Serves archive name id) {row : Document}
    (current : stored? run.store name id = some (some row))
    : table.descriptor.drops startMillis endMillis row = false := by
  have own := h name table bound
  by_cases some : ∃ operation ∈ archive.batch, operation.key = (name, id)
  · obtain ⟨operation, member, about⟩ := some
    obtain ⟨_, written, after⟩ := serves.applied operation member about
    cases current.symm.trans after
    obtain ⟨record, staged, prepared⟩ := (h.mem_batch_iff bound about).mp member
    -- What was written is dated by the row before it, and else by the staged record.
    cases kept : table.descriptor.retention with
    | none => simp [Descriptor.drops, kept]
    | some retention =>
        obtain ⟨_, whole, bucketed⟩ := bucketed_of_retention own.listed kept
        have place : stored? archive.store table.worker.descriptor.table record.id
            = stored? archive.store name id := by
          rw [show table.worker.descriptor.table = name from own.named,
            own.keyed id record staged]
        have dated := Worker.bucket?_written bucketed whole prepared (kind archive.store)
          (place ▸ written)
        rw [place] at dated
        refine own.drops_eq_false fun bucket read => ?_
        rw [dated] at read
        rcases before : stored? archive.store name id with _ | _ | row
        · rw [before] at read
          cases read
          exact recordLive record staged
        · rw [before] at read
          cases read
        · rw [before] at read
          exact rowLive row bucket before read
  · rw [serves.unchanged some] at current
    exact (h name table bound).drops_eq_false fun bucket read => rowLive row bucket current read

/-- A cycle without a deletion serves every row. -/
theorem IsSound.serves_cycle (h : archive.IsSound) {table : Table RecordKind.Carrier}
    (bound : archive.tables.get? name = some table) (timeout : Duration) {deadline : Deadline}
    (inTime : (kind archive.store).isLate deadline = false) (id : String)
    : DisturbedCycle.Serves
        ⟨archive.batch, (archive.cycle timeout deadline).result,
          (archive.cycle timeout deadline).archive.store⟩
        archive name id := by
  rw [← flushed_batch]
  exact h.serves bound timeout inTime rfl (fun _ _ => .inl rfl) rfl rfl

/-- A deletion that spares a row and the record staged there leaves the row to be served. -/
theorem IsSound.serves_disturbedCycle (h : archive.IsSound) {table : Table RecordKind.Carrier}
    (bound : archive.tables.get? name = some table) (timeout : Duration) {deadline : Deadline}
    (inTime : (kind archive.store).isLate deadline = false) (swept : List String)
    {startMillis endMillis : Int}
    (rowLive : ∀ row bucket, stored? archive.store name id = some (some row) →
      bucket? row "time_bucket" = some bucket →
      table.descriptor.covers startMillis endMillis bucket = false)
    (recordLive : ∀ record, table.worker.staged.get? id = some record →
      table.descriptor.covers startMillis endMillis record.timeBucket = false)
    (placement : Placement)
    : (archive.disturbedCycle timeout deadline
        (archive.deleteHistory swept startMillis endMillis) placement).Serves archive name id := by
  have deleted : stored? (archive.deleteHistory swept startMillis endMillis archive.store) name id
      = stored? archive.store name id :=
    h.stored?_deleteHistory bound swept fun row current =>
      (h name table bound).drops_eq_false fun bucket read => rowLive row bucket current read
  have ofKind := kind_deleteHistory archive swept startMillis endMillis archive.store
  cases placement with
  | beforeDrain =>
      refine Eq.mp (congrArg (DisturbedCycle.Serves · archive name id)
        (flushed_batch _ timeout deadline)) ?_
      exact h.serves bound timeout inTime ofKind (fun _ _ => .inl rfl) deleted deleted
  | beforeFlush =>
      exact h.serves bound timeout inTime ofKind
        (archive.stored?_deleteHistory_cases swept startMillis endMillis archive.store) rfl deleted
  | afterFlush =>
      -- The deletion meets what the cycle has made of the row.
      have plainCycle := h.serves_cycle bound timeout inTime id
      refine plainCycle.after (h.stored?_deleteHistory bound swept fun row current => ?_)
      exact h.spared_of_serves bound rowLive recordLive plainCycle current

/-- Wherever a deletion falls in a cycle, it does not disturb a row with a time bucket that it does
not cover, or no row at all, if it does not cover that of the record staged there either. The final
row is that of a cycle without the deletion, and the operation that is drained for it is the same
and is applied.
-/
theorem deletion_spares_live_rows {archive : Archive Backend} (sound : archive.IsSound)
    (timeout : Duration) {deadline : Deadline}
    (inTime : (kind archive.store).isLate deadline = false)
    (swept : List String) (startMillis endMillis : Int) {name : String}
    {table : Table RecordKind.Carrier} (bound : archive.tables.get? name = some table) {id : String}
    (rowLive : ∀ row bucket, archive.row? name id = .ok (some row) →
      bucket? row "time_bucket" = some bucket →
      table.descriptor.covers startMillis endMillis bucket = false)
    (recordLive : ∀ record, table.worker.staged.get? id = some record →
      table.descriptor.covers startMillis endMillis record.timeBucket = false)
    (placement : Placement)
    : let run := archive.disturbedCycle timeout deadline
        (archive.deleteHistory swept startMillis endMillis) placement
      TableStore.row? run.store name id = (archive.cycle timeout deadline).archive.row? name id
        ∧ run.Serves archive name id := by
  intro run
  have serves : run.Serves archive name id :=
    sound.serves_disturbedCycle bound timeout inTime swept
      (fun row bucket current => rowLive row bucket (row?_eq_ok_some_iff.mpr current))
      recordLive placement
  have same := serves.stored?_eq (sound.serves_cycle bound timeout inTime id)
  refine ⟨?_, serves⟩
  unfold row?
  rw [row?_eq_stored?, row?_eq_stored?, same]

/-- Between the drain and the flush, history up to the end of the year 2022 takes the row of that
year that the batch updates, while the row of the year 2024 is updated as without the deletion.
-/
theorem deletion_spares_live_row_beside_lost_one
    : let mapping (id : String) (bucket : Int64) : RecordKind.instanceMapping.Carrier :=
        ⟨[.string id, .string "m", .long bucket, .integer 1, .integer 2, .integer 3], rfl⟩
      let old := mapping "old" 20220106
      let new := mapping "new" 20240106
      let steps : List ArchiveStep :=
        [.execute [⟨.insert, "day_instance_mapping", "old", old.document⟩,
            ⟨.insert, "day_instance_mapping", "new", new.document⟩],
          .ingest .instanceMapping "day_instance_mapping" old,
          .ingest .instanceMapping "day_instance_mapping" new]
      let archive := (onStore (Backend.ofKind .database) .lenient).run steps
      let run := archive.disturbedCycle 20000 .ahead
        (archive.deleteHistory ["day_instance_mapping"] 0 1672444800000) .beforeFlush
      run.result.toOption.map (fun outcome => (outcome.applied, outcome.failed.map (·.id)))
          = some (1, ["old"])
        ∧ TableStore.row? run.store "day_instance_mapping" "new"
          = (archive.cycle 20000 .ahead).archive.row? "day_instance_mapping" "new" := by
  intro mapping old new steps archive run
  have sound : archive.IsSound := (isSound_onStore (Backend.ofKind .database) .lenient).run steps
  have rejected : run.result.toOption.map
      (fun outcome => (outcome.applied, outcome.failed.map (·.id))) = some (1, ["old"]) := by
    decide +kernel
  obtain ⟨table, bound⟩ : ∃ table, archive.tables.get? "day_instance_mapping" = some table :=
    Option.isSome_iff_exists.mp (by decide +kernel)
  have dated : ((archive.row? "day_instance_mapping" "new").toOption.bind id).bind
      (bucket? · "time_bucket") = some 20240106 := by
    decide +kernel
  have live : (archive.tables.get? "day_instance_mapping").all (fun table =>
      !table.descriptor.covers 0 1672444800000 20240106
        && (table.worker.staged.get? "new").all fun record =>
          !table.descriptor.covers 0 1672444800000 record.timeBucket) = true := by
    decide +kernel
  have inTime : (kind archive.store).isLate .ahead = false := by
    decide +kernel
  -- From here on only these facts about the archive count, not how it came to be.
  clear_value archive
  rw [bound, Option.all_some, Bool.and_eq_true, Bool.not_eq_true'] at live
  have spared := deletion_spares_live_rows sound 20000 inTime
    ["day_instance_mapping"] 0 1672444800000 bound
    (fun row bucket found read => by
      rw [found] at dated
      cases read.symm.trans dated
      exact live.1)
    (fun record staged => by simpa [staged] using live.2) .beforeFlush
  exact ⟨rejected, spared.1⟩

end Archive

end Telemetry.Collector
