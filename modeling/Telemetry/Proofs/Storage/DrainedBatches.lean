import Mathlib.Data.List.Basic
import Telemetry.Proofs.Storage.BatchOutcomes
import Telemetry.Proofs.Storage.PersistedRecords
import Telemetry.Storage.TableSet

/-! What draining tables yields. A worker prepares an insert for an id without a row and an update
for one with a row, at most one for each id, and loses the records that it cannot prepare. Draining
several tables puts their operations one behind the other and leaves nothing staged.
-/

namespace Telemetry.Storage

open HasPlainForm

-----------------------------------------------------------------------------------------
-- Workers
-----------------------------------------------------------------------------------------

/-- A row that is fetched at all can be read and is fetched as a record. -/
theorem Descriptor.fetch_eq_some {entity : Entity} {S : Type} [TableStore S] [HasPlainForm S]
    {store : S} {descriptor : Descriptor} {id : String} {row : Row}
    {record? : Option (Record entity)} (present : stored? store descriptor.table id = some row)
    (fetched : descriptor.fetch (Record entity) store id = .ok record?)
    : ∃ document record, row = some document ∧ record? = some record
        ∧ Record.decode? (.ofDocument document) = some record := by
  simp only [fetch, row?_eq_stored?, present, bind, Except.bind] at fetched
  cases row with
  | none => cases fetched
  | some document =>
      simp only [PlainStore.read] at fetched
      split at fetched
      next record decoded => cases fetched; exact ⟨document, record, rfl, rfl, decoded⟩
      next => cases fetched

/-- A row that was read can be read again after columns of a record are written into it. -/
theorem Descriptor.row_overwrite_restrict {entity : Entity} {S : Type} [TableStore S]
    [HasPlainForm S] {store : S} {table id : String} {row : Document}
    (present : stored? store table id = some (some row)) (descriptor : Descriptor)
    (merged : Record entity)
    : (kind store).row (overwrite row (descriptor.restrict merged.document))
      = some ((kind store).kept (overwrite row (descriptor.restrict merged.document))) := by
  have columns : (descriptor.restrict merged.document).IsReadable := by
    unfold restrict
    split
    · exact merged.isReadable_document
    · exact merged.isReadable_document.filter _
  exact BackendKind.row_of_fits
    ((fits_of_stored? present).overwrite (BackendKind.fits_of_isReadable columns))

namespace Worker

variable {entity : Entity} {S : Type} [TableStore S]
variable {worker : Worker (Record entity)} {store : S}

/-- The staged records for which there is no operation. -/
def unprepared {R : Type} [StreamData R] (worker : Worker R) (store : S) : Nat :=
  (worker.staged.entries.filter fun entry => !(worker.prepare store entry.2).isOk).length

/-- Staging a record keeps the others and puts it under its own identity. -/
theorem IsKeyed.ingest (keyed : worker.IsKeyed) {record : Record entity} {what : Ingested}
    {next : Worker (Record entity)} (ingested : worker.ingest record = .ok (what, next))
    : next.descriptor = worker.descriptor ∧ next.IsKeyed := by
  have insert {total : Record entity} (same : total.id = record.id)
      : IsKeyed { worker with staged := worker.staged.insert record.id total } := by
    intro id staged found
    rw [KeyMap.get?_insert] at found
    split at found
    next here => cases found; exact same.trans here.symm
    next => exact keyed id staged found
  cases found : worker.staged.get? record.id with
  | none =>
      have found : worker.staged.get? (StreamData.id record) = none := found
      simp only [Worker.ingest, found] at ingested
      cases ingested
      exact ⟨rfl, insert rfl⟩
  | some earlier =>
      have identity := keyed _ _ found
      have found : worker.staged.get? (StreamData.id record) = some earlier := found
      simp only [Worker.ingest, found] at ingested
      obtain ⟨merged, merges, made⟩ := bind_eq_ok.mp ingested
      cases made
      exact ⟨rfl, insert ((Record.id_of_merge merges).trans identity)⟩

theorem isKeyed_cleared (worker : Worker (Record entity)) : worker.cleared.IsKeyed :=
  fun _ _ found => nomatch found

theorem mem_operations {operation : Operation}
    : operation ∈ worker.operations store
      ↔ ∃ id record, worker.staged.get? id = some record
          ∧ worker.prepare store record = .ok operation := by
  simp only [operations, List.mem_filterMap, Prod.exists, ← KeyMap.get?_eq_some_iff]
  refine exists_congr fun id => exists_congr fun record => and_congr_right fun _ => ?_
  cases worker.prepare store record <;> simp [Except.toOption]

/-- A worker prepares at most one operation for each id. -/
theorem nodup_ids_operations (keyed : worker.IsKeyed)
    : ((worker.operations store).map (·.id)).Nodup := by
  refine List.pairwise_map.mpr ?_
  refine List.pairwise_filterMap.mpr ?_
  have keys := List.pairwise_map.mp worker.staged.nodup_keys
  refine keys.imp_of_mem fun {first second} inFirst inSecond differ => ?_
  intro operation prepared other preparedOther same
  have named := (prepare_names (ok_of_toOption prepared)).2
  have namedOther := (prepare_names (ok_of_toOption preparedOther)).2
  rw [keyed first.1 first.2 (KeyMap.get?_eq_some_iff.mpr inFirst)] at named
  rw [keyed second.1 second.2 (KeyMap.get?_eq_some_iff.mpr inSecond)] at namedOther
  exact differ (named.symm.trans (same.trans namedOther))

/-- The operations of a worker are about different rows. -/
theorem nodup_keys_operations (keyed : worker.IsKeyed)
    : ((worker.operations store).map Operation.key).Nodup := by
  have ids : ((worker.operations store).map (·.id)).Nodup := worker.nodup_ids_operations keyed
  refine List.Nodup.of_map Prod.snd ?_
  rw [List.map_map]
  exact ids

/-- Every staged record becomes an operation or is lost. -/
theorem length_operations_add (worker : Worker (Record entity)) (store : S)
    : (worker.operations store).length + worker.unprepared store = worker.pending := by
  have split := List.length_eq_countP_add_countP
    (fun entry => (worker.prepare store entry.2).isOk) (l := worker.staged.entries)
  have prepared : (fun entry : String × Record entity =>
        ((worker.prepare store entry.2).toOption).isSome)
      = fun entry => (worker.prepare store entry.2).isOk := by
    funext entry
    cases worker.prepare store entry.2 <;> rfl
  unfold operations unprepared pending KeyMap.size
  rw [List.length_filterMap_eq_countP, prepared, split, ← List.countP_eq_length_filter]
  simp

section

variable [HasPlainForm S] {record : Record entity} {operation : Operation}

/-- What a worker prepares: an insert of the record as it is if there is no row, and else an update
with the record merged into what is read from the row.
-/
theorem prepare_eq_ok (h : worker.prepare store record = .ok operation)
    : stored? store worker.descriptor.table record.id = none
        ∧ operation = ⟨.insert, worker.descriptor.table, record.id, record.document⟩
      ∨ ∃ row persisted merged,
        stored? store worker.descriptor.table record.id = some (some row)
        ∧ Record.decode? (.ofDocument row) = some persisted
        ∧ worker.mode.merge persisted record = .ok merged
        ∧ operation = ⟨.update, worker.descriptor.table, merged.id,
            worker.descriptor.restrict merged.document⟩ := by
  obtain ⟨persisted?, fetched, h⟩ := bind_eq_ok.mp h
  have fetched : worker.descriptor.fetch (Record entity) store record.id = .ok persisted? := fetched
  cases current : stored? store worker.descriptor.table record.id with
  | none =>
      cases (Descriptor.fetch_absent current).symm.trans fetched
      change worker.descriptor.prepareInsert record = .ok operation at h
      unfold Descriptor.prepareInsert at h
      rw [Descriptor.encode_eq] at h
      split at h
      · cases h
      · cases h
        exact .inl ⟨rfl, rfl⟩
  | some row =>
      obtain ⟨document, persisted, rfl, rfl, decoded⟩ := Descriptor.fetch_eq_some current fetched
      obtain ⟨merged, merges, h⟩ := bind_eq_ok.mp h
      unfold Descriptor.prepareUpdate at h
      rw [Descriptor.encode_eq] at h
      cases h
      exact .inr ⟨document, persisted, merged, rfl, decoded, merges, rfl⟩

/-- An operation is an insert if its row is absent, and else an update of a row that can be read. -/
theorem suits_of_prepare (h : worker.prepare store record = .ok operation)
    : operation.Suits (stored? store worker.descriptor.table record.id) := by
  rcases prepare_eq_ok h with ⟨absent, rfl⟩ | ⟨row, _, _, present, _, _, rfl⟩
  · rw [absent]
    rfl
  · rw [present]
    rfl

/-- A worker writes rows that can be read. -/
theorem exists_written_of_prepare (h : worker.prepare store record = .ok operation)
    : ∃ document, operation.written (kind store).row
        (stored? store worker.descriptor.table record.id) = .ok (some document) := by
  rcases prepare_eq_ok h with ⟨absent, rfl⟩ | ⟨row, _, merged, present, _, _, rfl⟩
  · exact ⟨_, by rw [absent]; exact congrArg Except.ok ((kind store).row_document record)⟩
  · have written := Descriptor.row_overwrite_restrict present worker.descriptor merged
    exact ⟨_, by rw [present]; exact congrArg Except.ok written⟩

/-- What a worker prepares suits the rows that are there. -/
theorem suits_of_mem_operations
    : ∀ operation ∈ worker.operations store,
        operation.Suits (stored? store operation.table operation.id) := by
  intro operation member
  obtain ⟨id, record, _, prepared⟩ := mem_operations.mp member
  obtain ⟨table, named⟩ := prepare_names prepared
  rw [table, named]
  exact suits_of_prepare prepared

/-- The batch that a worker prepares is committed unless it is dropped for its deadline, and its
flush succeeds unless the answer is late.
-/
theorem flush_operations (keyed : worker.IsKeyed) (timeout : Duration) (deadline : Deadline)
    (store : S)
    : let pipeline : Pipeline := ⟨timeout, worker.operations store⟩
      pipeline.commits deadline store
        = ((worker.operations store).isEmpty || !(kind store).drops deadline)
      ∧ (pipeline.flush BatchSink.store deadline store).result.isOk
        = ((worker.operations store).isEmpty || !(kind store).isLate deadline) :=
  Pipeline.flush_of_suits (nodup_keys_operations keyed) worker.suits_of_mem_operations

/-- What a worker prepares for a record depends on the row of the record alone. -/
theorem prepare_congr {other : S}
    (same : stored? other worker.descriptor.table record.id
      = stored? store worker.descriptor.table record.id)
    : worker.prepare other record = worker.prepare store record := by
  have fetch : worker.descriptor.fetch (Record entity) other (StreamData.id record)
      = worker.descriptor.fetch (Record entity) store (StreamData.id record) := by
    unfold Descriptor.fetch
    rw [row?_eq_stored?, row?_eq_stored?]
    exact congrArg (PlainStore.read · >>= _) same
  unfold prepare
  rw [fetch]

end

end Worker

-----------------------------------------------------------------------------------------
-- Sets of tables
-----------------------------------------------------------------------------------------

namespace TableSet

variable {ι : Type} {Carrier : ι → Type} [∀ kind, StreamData (Carrier kind)]
variable {S : Type} [TableStore S]

/-- Draining different tables puts their operations one behind the other. -/
theorem drain_operations (store : S) {names : List String} (distinct : names.Nodup)
    (tables : TableSet Carrier)
    : (drain store names tables).1
      = names.flatMap fun name => ((tables.get? name).map (·.operations store)).getD [] := by
  induction names generalizing tables with
  | nil => rfl
  | cons name rest ih =>
      obtain ⟨fresh, later⟩ := List.nodup_cons.mp distinct
      rw [drain, List.flatMap_cons]
      cases found : tables.get? name with
      | none => exact ih later tables
      | some table =>
          dsimp only
          rw [ih later]
          refine congrArg (table.operations store ++ ·) (List.flatMap_congr fun other member => ?_)
          have ne : other ≠ name := fun same => fresh (same ▸ member)
          rw [KeyMap.get?_insert, if_neg ne]

/-- Drained tables have nothing staged, and the others stay as they are. -/
theorem get?_drain (store : S) (names : List String) (tables : TableSet Carrier) (name : String)
    : (drain store names tables).2.get? name
      = if name ∈ names then (tables.get? name).map Table.cleared else tables.get? name := by
  induction names generalizing tables with
  | nil => rfl
  | cons first rest ih =>
      rw [drain]
      cases found : tables.get? first with
      | none =>
          rw [ih]
          by_cases here : name = first
          · subst here
            simp [found]
          · simp [here]
      | some table =>
          dsimp only
          rw [ih, KeyMap.get?_insert]
          by_cases here : name = first
          · subst here
            simp only [found, if_true, List.mem_cons, true_or, Option.map_some]
            split <;> rfl
          · simp [here]

end TableSet

end Telemetry.Storage
