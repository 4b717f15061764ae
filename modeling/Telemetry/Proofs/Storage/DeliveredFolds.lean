import Telemetry.Proofs.Records.LenientFolds
import Telemetry.Proofs.Storage.DrainedBatches
import Telemetry.Collector.RecordKind
import Mathlib.Logic.Function.Iterate

/-! What a worker and its store make of the records that are handed to them, over every order of
ingests, drains and flushes. The row of an id holds the lenient fold of the records that were
committed under it, but for doubles that a store does not give back as they were. A flush whose time
runs out during the commit is the one that has delivered its records and yet reports a failure.
-/

namespace Telemetry.Storage

open HasPlainForm

-----------------------------------------------------------------------------------------
-- Runs
-----------------------------------------------------------------------------------------

/-- A worker with its store and the batch on its way there, and what became of the records. -/
structure Persistence (entity : Entity) (S : Type) where
  worker : Worker (Record entity)
  store : S
  /-- The operations that were drained and are not flushed yet. -/
  inFlight : Option (List Operation) := none
  /-- The records ingested since the last drain. -/
  waiting : List (Record entity) := []
  /-- The records that the batch in flight was drained from. -/
  drained : List (Record entity) := []
  /-- The records of each batch that was committed. -/
  delivered : List (List (Record entity)) := []

/-- What may happen to a worker and its store. -/
inductive PersistenceStep (entity : Entity) where
  | ingest (record : Record entity)
  | drain
  | flush (timeout : Duration) (deadline : Deadline)

namespace Persistence

variable {entity : Entity} {S : Type} [TableStore S]

/-- One step. A drain waits for the flush of the batch in flight. -/
def step (state : Persistence entity S) : PersistenceStep entity → Persistence entity S
  | .ingest record =>
      { state with
        worker := ((state.worker.ingest record).toOption.map (·.2)).getD state.worker
        waiting := state.waiting ++ [record] }
  | .drain =>
      match state.inFlight with
      | some _ => state
      | none =>
          { state with
            worker := state.worker.cleared
            inFlight := some (state.worker.operations state.store)
            waiting := []
            drained := state.waiting }
  | .flush timeout deadline =>
      match state.inFlight with
      | none => state
      | some operations =>
          let pipeline : Pipeline := ⟨timeout, operations⟩
          { state with
            store := (pipeline.flush BatchSink.store deadline state.store).state
            inFlight := none
            drained := []
            delivered := state.delivered
              ++ if pipeline.commits deadline state.store then [state.drained] else [] }

def run (state : Persistence entity S) (steps : List (PersistenceStep entity))
    : Persistence entity S :=
  steps.foldl step state

/-- What every step preserves holds after a run, by induction over its steps. -/
theorem run_preserves {P : Persistence entity S → Prop}
    (preserved : ∀ state step, P state → P (state.step step)) {state : Persistence entity S}
    (h : P state) (steps : List (PersistenceStep entity))
    : P (state.run steps) := by
  induction steps generalizing state with
  | nil => exact h
  | cons step rest ih => exact ih (preserved state step h)

def ofId (id : String) (records : List (Record entity)) : List (Record entity) :=
  records.filter (·.id = id)

/-- The records of an id by the batch that delivered them, without the batches that delivered none.
-/
def deliveries (state : Persistence entity S) (id : String) : List (List (Record entity)) :=
  (state.delivered.map (ofId id)).filter (!·.isEmpty)

end Persistence

-----------------------------------------------------------------------------------------
-- The value of a column after some deliveries
-----------------------------------------------------------------------------------------

/-- What a store of a kind makes of a folded value of a column over some deliveries. A value that
is never replaced is kept anew by every one of them.
-/
def BackendKind.settled (kind : BackendKind) (column : Column) (deliveries : Nat)
    (value : ColumnValue)
    : ColumnValue :=
  if column.rule = .nonMerge then kind.keptValue^[deliveries] value else kind.keptValue value

theorem BackendKind.settled_of_kept {kind : BackendKind} {value : ColumnValue}
    (h : kind.keptValue value = value) (column : Column) (deliveries : Nat)
    : kind.settled column deliveries value = value := by
  unfold settled
  split
  · exact Function.iterate_fixed h deliveries
  · exact h

/-- Keeping the merged value of a column with what is delivered settles it once more. -/
theorem BackendKind.settled_succ (kind : BackendKind) {column : Column} (exact : column.IsExact)
    {total : ColumnValue} (typed : total.type = column.type) (delivered : ColumnValue)
    (deliveries : Nat)
    : kind.keptValue (column.combine (kind.settled column deliveries total) delivered)
      = kind.settled column (deliveries + 1) (column.combine total delivered) := by
  unfold settled
  cases rule : column.rule with
  | nonMerge =>
      simp only [Column.combine, rule, if_true]
      exact (Function.iterate_succ_apply' _ _ _).symm
  | coverMerge => simp [Column.combine, rule]
  | _ =>
      have whole : column.type ≠ .double := fun double =>
        exact ⟨double, by rw [rule]; rfl⟩
      have same := kind.keptValue_of_ne_double (typed ▸ whole : total.type ≠ .double)
      simp [same]

-----------------------------------------------------------------------------------------
-- Rows after some deliveries
-----------------------------------------------------------------------------------------

/-- The row of an id after some deliveries. -/
inductive Settled {entity : Entity} (kind : BackendKind) (id : String)
    : List (List (Record entity)) → Option Row → Prop where
  | absent : Settled kind id [] none
  | present {deliveries : List (List (Record entity))} (handed total : Record entity)
      (finite : handed.IsFinite) (identity : handed.id = id)
      (all : ∀ record ∈ deliveries.flatten, record.id = id)
      (folds : MergeMode.lenient.fold deliveries.flatten = .ok (some total))
      (values : ∀ column ∈ entity.columns, column.IsExact →
        kind.keptValue (handed.value column)
          = kind.settled column deliveries.length (total.value column))
      : Settled kind id deliveries (some (some (kind.kept handed.document)))

namespace Settled

variable {entity : Entity} {S : Type} [TableStore S] [HasPlainForm S]

/-- The operation for a staged record settles the row with the records it was staged from. -/
theorem deliver (mergeable : entity.IsMergeable) {worker : Worker (Record entity)} {store : S}
    (takes : worker.descriptor.TakesRecords) (lenient : worker.mode = .lenient)
    (finite : worker.HandsFinite store) {id : String}
    {deliveries : List (List (Record entity))}
    (settled : Settled (kind store) id deliveries (stored? store worker.descriptor.table id))
    {records : List (Record entity)} (all : ∀ record ∈ records, record.id = id)
    {record : Record entity} (folds : MergeMode.lenient.fold records = .ok (some record))
    (identity : record.id = id) (staged : worker.staged.get? id = some record)
    : ∃ operation, worker.prepare store record = .ok operation
        ∧ Settled (kind store) id (deliveries ++ [records])
          (operation.after (kind store).row (stored? store worker.descriptor.table id)) := by
  subst identity
  generalize current : stored? store worker.descriptor.table record.id = row at settled
  cases settled with
  | absent =>
      obtain ⟨handed, prepared⟩ := Worker.prepare_insert takes current
      have finite := finite _ _ staged record handed
      have written : Operation.after (kind store).row
            ⟨.insert, worker.descriptor.table, record.id, record.document⟩ none
          = some (some ((kind store).kept record.document)) :=
        congrArg some ((kind store).row_document record)
      refine ⟨_, prepared, ?_⟩
      rw [written]
      refine .present record record finite rfl (by simpa using all) (by simpa using folds)
        fun column _ _ => ?_
      unfold BackendKind.settled
      split <;> rfl
  | present earlier total earlierFinite identity allEarlier foldsEarlier values =>
      -- What is merged with the staged record is the earlier one as the store gives it back.
      have decoded := (kind store).decode?_kept earlierFinite
      have same : ((kind store).keptRecord earlier).id = record.id :=
        ((kind store).id_keptRecord earlier).trans identity
      obtain ⟨merged, merges, mergedId, mergedValues⟩ := Record.merge_lenient mergeable same
      rw [← lenient] at merges
      obtain ⟨handed, prepared⟩ := Worker.prepare_update takes current decoded merges
      have written : Operation.after (kind store).row
            ⟨.update, worker.descriptor.table, merged.id, merged.document⟩
            (some (some ((kind store).kept earlier.document)))
          = some (some ((kind store).kept merged.document)) := by
        simp only [Operation.after, Operation.written, Option.bind_some,
          BackendKind.overwrite_kept, BackendKind.row_document]
      have flat : (deliveries ++ [records]).flatten = deliveries.flatten ++ records := by simp
      have together : ∀ record' ∈ deliveries.flatten ++ records, record'.id = record.id :=
        fun record' member => (List.mem_append.mp member).elim (allEarlier record') (all record')
      have some : deliveries.flatten ++ records ≠ [] :=
        List.append_ne_nil_of_right_ne_nil _ (MergeMode.ne_nil_of_fold folds)
      obtain ⟨total', folds', _⟩ := Record.exists_fold_lenient mergeable together some
      refine ⟨_, prepared, ?_⟩
      rw [written]
      refine .present merged total' (finite _ _ staged merged handed) (mergedId.trans same)
        (flat ▸ together) (flat ▸ folds') fun column member exact => ?_
      have combined := Record.value_fold_append mergeable allEarlier all foldsEarlier folds folds'
        member exact
      rw [mergedValues column member, (kind store).value_keptRecord earlier member,
        values column member exact, combined, List.length_append]
      exact (kind store).settled_succ exact (total.type_value member) _ _

end Settled

-----------------------------------------------------------------------------------------
-- What every step preserves
-----------------------------------------------------------------------------------------

/-- Whether a worker of a table holds the folds of some records. -/
structure Worker.Holds {entity : Entity} (worker : Worker (Record entity))
    (descriptor : Descriptor) (records : List (Record entity))
    : Prop where
  descriptor : worker.descriptor = descriptor
  lenient : worker.mode = .lenient
  staged (id : String)
    : MergeMode.lenient.fold (Persistence.ofId id records) = .ok (worker.staged.get? id)

namespace Persistence

variable {entity : Entity} {S : Type} [TableStore S]

theorem id_of_mem_ofId {id : String} {records : List (Record entity)}
    : ∀ record ∈ ofId id records, record.id = id := by
  intro record member
  simpa using (List.mem_filter.mp member).2

end Persistence

namespace Worker.Holds

variable {entity : Entity} {worker : Worker (Record entity)} {descriptor : Descriptor}
variable {records : List (Record entity)}

/-- Staged records stand under their own identity. -/
theorem keyed (mergeable : entity.IsMergeable) (h : worker.Holds descriptor records) {id : String}
    {record : Record entity} (staged : worker.staged.get? id = some record)
    : record.id = id := by
  have folds := h.staged id
  rw [staged] at folds
  obtain ⟨total, same, identity⟩ := Record.exists_fold_lenient mergeable
    Persistence.id_of_mem_ofId (MergeMode.ne_nil_of_fold folds)
  cases same.symm.trans folds
  exact identity

/-- Nothing is staged exactly for the identities without records. -/
theorem ofId_eq_nil (mergeable : entity.IsMergeable) (h : worker.Holds descriptor records)
    {id : String} (absent : worker.staged.get? id = none)
    : Persistence.ofId id records = [] := by
  by_contra some
  obtain ⟨total, folds, _⟩ :=
    Record.exists_fold_lenient mergeable Persistence.id_of_mem_ofId some
  have staged := (h.staged id).symm.trans folds
  rw [absent] at staged
  cases staged

/-- Ingesting a record adds it to the records that are held. -/
theorem ingest (mergeable : entity.IsMergeable) (h : worker.Holds descriptor records)
    (record : Record entity)
    : ∃ what next, worker.ingest record = .ok (what, next)
        ∧ next.Holds descriptor (records ++ [record]) := by
  have others {id : String} (ne : record.id ≠ id)
      : Persistence.ofId id (records ++ [record]) = Persistence.ofId id records := by
    simp [Persistence.ofId, List.filter_append, ne]
  have own : Persistence.ofId record.id (records ++ [record])
      = Persistence.ofId record.id records ++ [record] := by
    simp [Persistence.ofId, List.filter_append]
  have before := h.staged record.id
  -- The worker holds the record under its identity, merged or as it is.
  have insert {total : Record entity}
      (folds : MergeMode.lenient.fold (Persistence.ofId record.id records ++ [record])
        = .ok (some total))
      : Holds { worker with staged := worker.staged.insert record.id total } descriptor
          (records ++ [record]) := by
    refine ⟨h.descriptor, h.lenient, fun id => ?_⟩
    by_cases here : record.id = id
    · subst here
      rw [own, folds, KeyMap.get?_insert, if_pos rfl]
    · rw [others here, KeyMap.get?_insert, if_neg (Ne.symm here)]
      exact h.staged id
  cases staged : worker.staged.get? record.id with
  | none =>
      rw [staged] at before
      refine ⟨.staged, _, ?_, insert (MergeMode.fold_concat_of_none before record)⟩
      have staged : worker.staged.get? (StreamData.id record) = none := staged
      simp only [Worker.ingest, staged]
      rfl
  | some earlier =>
      rw [staged] at before
      obtain ⟨merged, merges, _⟩ := Record.merge_lenient mergeable (h.keyed mergeable staged)
      have folds := MergeMode.fold_concat_of_some before record
      rw [merges] at folds
      refine ⟨.merged, _, ?_, insert folds⟩
      have staged : worker.staged.get? (StreamData.id record) = some earlier := staged
      simp only [Worker.ingest, staged, h.lenient, merges]
      rfl

theorem cleared (h : worker.Holds descriptor records) : worker.cleared.Holds descriptor [] :=
  ⟨h.descriptor, h.lenient, fun _ => rfl⟩

end Worker.Holds

namespace Persistence

variable {entity : Entity} {S : Type}

/-- The records of an id are delivered in the order of the flushes. -/
theorem flatten_deliveries (state : Persistence entity S) (id : String)
    : (state.deliveries id).flatten = ofId id state.delivered.flatten := by
  unfold deliveries
  rw [List.flatten_filter_not_isEmpty, ofId, List.filter_flatten]
  rfl

variable [TableStore S] [HasPlainForm S]

/-- What links the staged records, the batch in flight and the rows to the records handed over. -/
structure Faithful (descriptor : Descriptor) (kind : BackendKind) (state : Persistence entity S)
    : Prop where
  ofKind : HasPlainForm.kind state.store = kind
  holds : state.worker.Holds descriptor state.waiting
  inFlight (operations : List Operation)
    : state.inFlight = some operations → ∃ worker : Worker (Record entity),
        worker.Holds descriptor state.drained ∧ worker.HandsFinite state.store
        ∧ operations = worker.operations state.store
  settled (id : String)
    : Settled kind id (state.deliveries id) (stored? state.store descriptor.table id)

namespace Faithful

variable {descriptor : Descriptor} {kind : BackendKind} {state : Persistence entity S}

/-- A batch that is committed settles the row of every id, with the records of that id in it. -/
theorem flushed (mergeable : entity.IsMergeable) (takes : descriptor.TakesRecords)
    (h : state.Faithful descriptor kind) {worker : Worker (Record entity)}
    (holds : worker.Holds descriptor state.drained) (finite : worker.HandsFinite state.store)
    (timeout : Duration) (deadline : Deadline)
    (committed : Pipeline.commits ⟨timeout, worker.operations state.store⟩ deadline state.store
      = true) (id : String)
    : Settled kind id
        (((state.delivered ++ [state.drained]).map (ofId id)).filter (!·.isEmpty))
        (stored? (Pipeline.flush ⟨timeout, worker.operations state.store⟩ BatchSink.store deadline
          state.store).state descriptor.table id) := by
  have before := h.settled id
  have keyed (id : String) (record : Record entity)
      (staged : worker.staged.get? id = some record)
      : record.id = id :=
    holds.keyed mergeable staged
  rw [Pipeline.stored?_flush, if_pos committed, ← holds.descriptor, worker.filter_operations keyed]
  rw [List.map_append, List.filter_append]
  cases staged : worker.staged.get? id with
  | none =>
      have nothing := holds.ofId_eq_nil mergeable staged
      simpa [nothing, holds.descriptor, deliveries] using before
  | some record =>
      have folds := holds.staged id
      rw [staged] at folds
      have some := MergeMode.ne_nil_of_fold folds
      rw [← holds.descriptor, ← h.ofKind] at before
      obtain ⟨operation, prepared, after⟩ := before.deliver mergeable (holds.descriptor ▸ takes)
        holds.lenient finite id_of_mem_ofId folds (keyed id record staged) staged
      have delivered : [ofId id state.drained].filter (!·.isEmpty) = [ofId id state.drained] := by
        simp [some]
      rw [List.map_singleton, delivered, ← h.ofKind]
      simp only [Option.bind_some, prepared]
      exact after

/-- The flush of the batch in flight commits it unless it is dropped for its deadline, and succeeds
unless the answer is late.
-/
theorem flush_inFlight (mergeable : entity.IsMergeable) (h : state.Faithful descriptor kind)
    {operations : List Operation} (flight : state.inFlight = some operations) (timeout : Duration)
    (deadline : Deadline)
    : let pipeline : Pipeline := ⟨timeout, operations⟩
      pipeline.commits deadline state.store = (operations.isEmpty || !kind.drops deadline)
      ∧ (pipeline.flush BatchSink.store deadline state.store).result.isOk
        = (operations.isEmpty || !kind.isLate deadline) := by
  obtain ⟨worker, holds, _, rfl⟩ := h.inFlight operations flight
  have flushed := worker.flush_operations (fun id record staged => holds.keyed mergeable staged)
    timeout deadline state.store
  rw [h.ofKind] at flushed
  exact flushed

/-- Every step keeps the link. -/
theorem step (mergeable : entity.IsMergeable) (takes : descriptor.TakesRecords)
    (h : state.Faithful descriptor kind) (step : PersistenceStep entity)
    (finite : step = .drain → state.inFlight = none → state.worker.HandsFinite state.store)
    : (state.step step).Faithful descriptor kind := by
  cases step with
  | ingest record =>
      obtain ⟨what, next, ingested, holds⟩ := h.holds.ingest mergeable record
      refine ⟨h.ofKind, ?_, h.inFlight, h.settled⟩
      simp only [Persistence.step, ingested]
      exact holds
  | drain =>
      cases flight : state.inFlight with
      | some operations =>
          simp only [Persistence.step, flight]
          exact h
      | none =>
          simp only [Persistence.step, flight]
          refine ⟨h.ofKind, h.holds.cleared, ?_, h.settled⟩
          rintro operations ⟨⟩
          exact ⟨state.worker, h.holds, finite rfl flight, rfl⟩
  | flush timeout deadline =>
      cases flight : state.inFlight with
      | none =>
          simp only [Persistence.step, flight]
          exact h
      | some operations =>
          -- Nothing was written since the drain, so the operations fit the rows of now.
          obtain ⟨worker, holds, handsFinite, rfl⟩ := h.inFlight operations flight
          simp only [Persistence.step, flight]
          refine ⟨?_, h.holds, fun _ none => absurd none (by simp), fun id => ?_⟩
          · exact (Pipeline.kind_flush _ deadline state.store).1.trans h.ofKind
          · cases committed : Pipeline.commits ⟨timeout, worker.operations state.store⟩ deadline
                state.store with
            | true =>
                exact h.flushed mergeable takes holds handsFinite timeout deadline committed id
            | false =>
                have before := h.settled id
                simp only [Pipeline.stored?_flush, committed]
                simpa [deliveries] using before

/-- Every run keeps the link, by induction over its steps. -/
theorem run (mergeable : entity.IsMergeable) (takes : descriptor.TakesRecords)
    (h : state.Faithful descriptor kind) {steps : List (PersistenceStep entity)}
    (finite : ∀ before after, steps = before ++ .drain :: after →
      (state.run before).inFlight = none →
      (state.run before).worker.HandsFinite (state.run before).store)
    : (state.run steps).Faithful descriptor kind := by
  induction steps generalizing state with
  | nil => exact h
  | cons step rest ih =>
      have next : (state.step step).Faithful descriptor kind :=
        h.step mergeable takes step fun drain => finite [] rest (by rw [drain]; rfl)
      exact ih next fun before after same => finite (step :: before) after (by rw [same]; rfl)

end Faithful

/-- A worker over a store, before anything was handed over. -/
def fresh (entity : Entity) (descriptor : Descriptor) (store : S) : Persistence entity S where
  worker := { descriptor, mode := .lenient }
  store := store

/-- A row is there for exactly those identities under which a record was committed. It is read as
the lenient fold of all records committed under its identity, in the order of their ingests and
without any others, as far as columns are merged without rounding and a store gives their values
back. A value that is never replaced passes through the store with every delivery, and a later one
only with the last. A batch is committed unless a transactional store finds its deadline passed; its
flush reports success unless the deadline has passed then or passes during the commit.
-/
theorem rows_fold_deliveries {entity : Entity} (mergeable : entity.IsMergeable)
    {descriptor : Descriptor} (takes : descriptor.TakesRecords) {store : Backend}
    (empty : ∀ id, TableStore.row? store descriptor.table id = .ok none)
    (steps : List (PersistenceStep entity))
    (finite : ∀ before after, steps = before ++ .drain :: after →
      let reached := (fresh entity descriptor store).run before
      reached.inFlight = none → reached.worker.HandsFinite reached.store)
    : let done := (fresh entity descriptor store).run steps
      (∀ id, ((∃ row, TableStore.row? done.store descriptor.table id = .ok (some row))
          ↔ ∃ record ∈ done.delivered.flatten, record.id = id)
        ∧ ((∃ record ∈ done.delivered.flatten, record.id = id) →
          ∃ total stored, MergeMode.lenient.fold (ofId id done.delivered.flatten) = .ok (some total)
            ∧ descriptor.fetch (Record entity) done.store id = .ok (some stored)
            ∧ ∀ column ∈ entity.columns, column.IsExact →
              stored.value column
                  = (kind store).settled column (done.deliveries id).length (total.value column)
                ∧ ((kind store).keptValue (total.value column) = total.value column →
                  stored.value column = total.value column)))
      ∧ ∀ operations timeout deadline, done.inFlight = some operations →
          let pipeline : Pipeline := ⟨timeout, operations⟩
          pipeline.commits deadline done.store
              = (operations.isEmpty || !(kind store).drops deadline)
          ∧ (pipeline.flush BatchSink.store deadline done.store).result.isOk
              = (operations.isEmpty || !(kind store).isLate deadline) := by
  intro done
  have start : (fresh entity descriptor store).Faithful descriptor (kind store) := by
    refine ⟨rfl, ⟨rfl, rfl, fun _ => rfl⟩, fun _ none => absurd none (by simp [fresh]),
      fun id => ?_⟩
    change Settled _ id [] (stored? store descriptor.table id)
    rw [row?_eq_ok_none_iff.mp (empty id)]
    exact .absent
  have reached := start.run mergeable takes finite
  refine ⟨fun id => ?_, fun operations timeout deadline flight =>
    reached.flush_inFlight mergeable flight timeout deadline⟩
  have settled := reached.settled id
  have delivered : (∃ record ∈ done.delivered.flatten, record.id = id)
      ↔ (done.deliveries id).flatten ≠ [] := by
    rw [done.flatten_deliveries, ofId, ne_eq, List.filter_eq_nil_iff]
    simp only [decide_eq_true_eq, not_forall, not_not, exists_prop]
  change Settled (kind store) id (done.deliveries id) (stored? done.store descriptor.table id)
    at settled
  simp only [delivered, ← done.flatten_deliveries, row?_eq_ok_some_iff]
  generalize done.deliveries id = deliveries at settled
  generalize current : stored? done.store descriptor.table id = row at settled
  cases settled with
  | absent => simp
  | present handed total handedFinite _ _ folds values =>
      have some := MergeMode.ne_nil_of_fold folds
      have decoded := (kind store).decode?_kept handedFinite
      refine ⟨⟨fun _ => some, fun _ => ⟨_, rfl⟩⟩, fun _ => ⟨total, _, folds,
        Descriptor.fetch_present current decoded, fun column member exact => ?_⟩⟩
      have value := values column member exact
      rw [(kind store).value_keptRecord handed member, value]
      exact ⟨rfl, fun kept => BackendKind.settled_of_kept kept column _⟩

theorem rows_fold_deliveries_beside_ingest
    : let record (times : Int64) : Collector.RecordKind.cpuMetric.Carrier :=
        ⟨[.string "a", .string "m", .long 20240106, .integer 3, .double ⟨0x3fe0000000000000⟩,
          .long times], rfl⟩
      let daily : Descriptor := .bucketed "day_cpu_metric" .day
      let done := (fresh Collector.RecordKind.cpuMetric.entity daily (Backend.ofKind .database)).run
        [.ingest (record 2), .drain, .ingest (record 3), .flush 20000 .ahead]
      ∃ stored,
        daily.fetch Collector.RecordKind.cpuMetric.Carrier done.store "a" = .ok (some stored)
        ∧ stored.value ⟨"times", .long, .add⟩ = .long 2 := by
  intro record daily done
  have finite (before after : List (PersistenceStep Collector.RecordKind.cpuMetric.entity))
      (same : [.ingest (record 2), .drain, .ingest (record 3), .flush 20000 .ahead]
        = before ++ .drain :: after)
      : ((fresh _ daily (Backend.ofKind .database)).run before).worker.HandsFinite
          ((fresh _ daily (Backend.ofKind .database)).run before).store := by
    have only : before = [.ingest (record 2)] := by
      rcases before with _ | ⟨first, _ | ⟨second, _ | ⟨third, _ | ⟨fourth, rest⟩⟩⟩⟩ <;> simp_all
    subst only
    intro id staged found handed hands
    have entry : (id, staged) = ("a", record 2) :=
      List.mem_singleton.mp (KeyMap.get?_eq_some_iff.mp found)
    cases entry
    cases hands
    decide
  obtain ⟨rows, _⟩ := rows_fold_deliveries (by decide) ⟨rfl, rfl⟩ (fun _ => rfl) _
    (fun before after same _ => finite before after same)
  obtain ⟨_, filled⟩ := rows "a"
  obtain ⟨total, stored, folds, fetched, values⟩ :=
    filled ⟨record 2, by with_unfolding_all exact List.mem_singleton.mpr rfl, rfl⟩
  have one : MergeMode.lenient.fold (ofId "a" done.delivered.flatten)
      = .ok (some (record 2)) := by
    with_unfolding_all rfl
  cases one.symm.trans folds
  refine ⟨stored, fetched, ?_⟩
  exact (values ⟨"times", .long, .add⟩ (by decide) (by simp [Column.IsExact])).2 rfl

end Persistence

end Telemetry.Storage
