import Mathlib.Data.List.Induction
import Telemetry.Proofs.Storage.DeliveredFolds
import Telemetry.Proofs.Storage.StagedRecords

/-! The record that a row was last written from, in either merge mode and for every entity. A worker
leaves out the records that it cannot merge, and a delivery is lost on a row that cannot be read or
with which it cannot be merged. A row can be read exactly if the record behind it is finite, and one
that cannot is never written again.
-/

namespace Telemetry

open Storage HasPlainForm

-----------------------------------------------------------------------------------------
-- What is made of deliveries
-----------------------------------------------------------------------------------------

namespace MergeMode

variable {R : Type} [StreamData R]

/-- What is held of an id after one more record; one that cannot be merged is left out. -/
def absorb (mode : MergeMode) (held? : Option R) (record : R) : Option R :=
  match held? with
  | none => some record
  | some held => some ((mode.merge held record).toOption.getD held)

/-- What is held of an id after some records. -/
def gather (mode : MergeMode) (records : List R) : Option R :=
  records.foldl mode.absorb none

theorem absorb_eq_some {mode : MergeMode} {held? : Option R} {record total : R}
    (h : mode.absorb held? record = some total)
    : total = record ∨ ∃ held, held? = some held
        ∧ (total = held ∨ mode.merge held record = .ok total) := by
  cases held? with
  | none => cases h; exact .inl rfl
  | some held =>
      refine .inr ⟨held, rfl, ?_⟩
      cases merges : mode.merge held record with
      | error error => simp only [absorb, merges] at h; cases h; exact .inl rfl
      | ok merged => simp only [absorb, merges] at h; cases h; exact .inr rfl

theorem gather_concat (mode : MergeMode) (records : List R) (record : R)
    : mode.gather (records ++ [record]) = mode.absorb (mode.gather records) record :=
  List.foldl_append

theorem gather_eq_none_iff {mode : MergeMode} {records : List R}
    : mode.gather records = none ↔ records = [] := by
  rcases List.eq_nil_or_concat' records with rfl | ⟨earlier, record, rfl⟩
  · exact iff_of_true rfl rfl
  · rw [gather_concat]
    cases mode.gather earlier <;> simp [absorb]

/-- What holds of all records and survives their merges holds of what is gathered of them, by
induction from the last record.
-/
theorem of_gather {mode : MergeMode} {P : R → Prop} {records : List R}
    (each : ∀ record ∈ records, P record)
    (merged : ∀ held record total, P held → P record → mode.merge held record = .ok total → P total)
    {total : R} (gathers : mode.gather records = some total)
    : P total := by
  induction records using List.reverseRecOn generalizing total with
  | nil => cases gathers
  | append_singleton earlier record ih =>
      have here := each record (by simp)
      rw [gather_concat] at gathers
      rcases absorb_eq_some gathers with rfl | ⟨held, gathered, last⟩
      · exact here
      · have before : P held := ih (fun record member => each record (by simp [member])) gathered
        rcases last with rfl | merges
        · exact before
        · exact merged held record total before here merges

end MergeMode

/-- What is gathered of an id has this identity. -/
theorem Record.id_of_gather {entity : Entity} {mode : MergeMode} {id : String}
    {records : List (Record entity)} (all : ∀ record ∈ records, record.id = id)
    {total : Record entity} (gathers : mode.gather records = some total)
    : total.id = id :=
  MergeMode.of_gather all (fun _ _ _ held _ merges => (id_of_merge merges).trans held) gathers

namespace Storage.BackendKind

variable {entity : Entity}

/-- The record behind a row after a delivery, given the one behind it before. The delivery is lost
if the row cannot be read or the records cannot be merged.
-/
def rewrite (kind : BackendKind) (mode : MergeMode) (written? delivered? : Option (Record entity))
    : Option (Record entity) :=
  match written?, delivered? with
  | some written, some delivered =>
      if written.IsFinite then
        some ((mode.merge (kind.keptRecord written) delivered).toOption.getD written)
      else some written
  | written?, delivered? => written?.or delivered?

/-- The record behind a row after some deliveries. -/
def lastWritten (kind : BackendKind) (mode : MergeMode)
    (deliveries : List (List (Record entity)))
    : Option (Record entity) :=
  deliveries.foldl (fun written? records => kind.rewrite mode written? (mode.gather records)) none

theorem lastWritten_concat (kind : BackendKind) (mode : MergeMode)
    (deliveries : List (List (Record entity))) (records : List (Record entity))
    : kind.lastWritten mode (deliveries ++ [records])
      = kind.rewrite mode (kind.lastWritten mode deliveries) (mode.gather records) :=
  List.foldl_append

theorem rewrite_eq_none_iff {kind : BackendKind} {mode : MergeMode}
    {written? delivered? : Option (Record entity)}
    : kind.rewrite mode written? delivered? = none ↔ written? = none ∧ delivered? = none := by
  cases written? with
  | none => simp [rewrite]
  | some written =>
      cases delivered? with
      | none => simp [rewrite]
      | some delivered =>
          by_cases finite : written.IsFinite <;> simp [rewrite, finite]

/-- Nothing was written exactly if nothing was delivered, by induction from the last delivery. -/
theorem lastWritten_eq_none_iff {kind : BackendKind} {mode : MergeMode}
    {deliveries : List (List (Record entity))}
    : kind.lastWritten mode deliveries = none ↔ deliveries.flatten = [] := by
  induction deliveries using List.reverseRecOn with
  | nil => exact iff_of_true rfl rfl
  | append_singleton earlier records ih =>
      rw [lastWritten_concat, rewrite_eq_none_iff, ih, MergeMode.gather_eq_none_iff,
        List.flatten_append, List.append_eq_nil_iff, List.flatten_singleton]

/-- The document of a record with an infinite double or a NaN cannot be read. -/
theorem decode?_kept_of_not_finite (kind : BackendKind) {record : Record entity}
    (infinite : ¬record.IsFinite)
    : (Record.decode? (.ofDocument (kind.kept record.document)) : Option (Record entity))
      = none := by
  obtain ⟨column, infinite⟩ := not_forall.mp infinite
  obtain ⟨member, infinite⟩ := Classical.not_imp.mp infinite
  -- The column is a double that is written as null, which stays null in a text.
  obtain ⟨number, value, overflow⟩ : ∃ number, record.value column = .double number
      ∧ number.isFinite = false := by
    cases value : record.value column with
    | double number =>
        rw [value] at infinite
        exact ⟨number, rfl, Bool.eq_false_iff.mpr infinite⟩
    | string _ | long _ | integer _ | byte _ =>
        rw [value] at infinite
        exact absurd trivial infinite
  have written := record.get?_document member
  rw [value, Record.encodeValue, overflow, if_neg Bool.false_ne_true] at written
  have null : (kind.kept record.document).get? column.name = some .null := by
    rw [get?_kept, written]
    cases kind <;> rfl
  have typed : column.type = .double := by rw [← record.type_value member, value]; rfl
  cases read : (Record.decode? (.ofDocument (kind.kept record.document))
      : Option (Record entity)) with
  | none => rfl
  | some other =>
      have column := Record.value_of_decode? read member
      rw [null, typed] at column
      cases column

end Storage.BackendKind

-----------------------------------------------------------------------------------------
-- Workers
-----------------------------------------------------------------------------------------

namespace Storage

/-- Whether a worker of a table has gathered some records. -/
structure Worker.Gathers {entity : Entity} (worker : Worker (Record entity))
    (descriptor : Descriptor) (mode : MergeMode) (records : List (Record entity))
    : Prop where
  descriptor : worker.descriptor = descriptor
  ofMode : worker.mode = mode
  staged (id : String) : worker.staged.get? id = mode.gather (Persistence.ofId id records)

namespace Worker.Gathers

variable {entity : Entity} {worker : Worker (Record entity)} {descriptor : Descriptor}
variable {mode : MergeMode} {records : List (Record entity)}

theorem keyed (h : worker.Gathers descriptor mode records) : worker.IsKeyed :=
  fun id _ staged =>
    Record.id_of_gather Persistence.id_of_mem_ofId ((h.staged id).symm.trans staged)

theorem cleared (h : worker.Gathers descriptor mode records)
    : worker.cleared.Gathers descriptor mode [] :=
  ⟨h.descriptor, h.ofMode, fun _ => rfl⟩

/-- An ingest adds its record to those that were gathered, whether it succeeds or not. -/
theorem ingest (h : worker.Gathers descriptor mode records) (record : Record entity)
    : (((worker.ingest record).toOption.map (·.2)).getD worker).Gathers descriptor mode
        (records ++ [record]) := by
  have others {id : String} (ne : id ≠ record.id)
      : Persistence.ofId id (records ++ [record]) = Persistence.ofId id records := by
    simp [Persistence.ofId, List.filter_append, ne.symm]
  have own : Persistence.ofId record.id (records ++ [record])
      = Persistence.ofId record.id records ++ [record] := by
    simp [Persistence.ofId, List.filter_append]
  have before := h.staged record.id
  -- The worker has absorbed the record under its identity.
  have holds {total : Record entity} (absorbs : mode.absorb
        (mode.gather (Persistence.ofId record.id records)) record = some total)
      : (worker.hold record.id total).Gathers descriptor mode (records ++ [record]) := by
    refine ⟨h.descriptor, h.ofMode, fun id => ?_⟩
    rw [get?_staged_hold]
    by_cases here : id = record.id
    · subst here
      rw [if_pos rfl, own, MergeMode.gather_concat, absorbs]
    · rw [if_neg here, others here, h.staged id]
  cases staged : worker.staged.get? record.id with
  | none =>
      rw [ingest_of_absent staged]
      rw [staged] at before
      exact holds (by rw [← before]; rfl)
  | some earlier =>
      rw [ingest_of_staged staged, h.ofMode]
      rw [staged] at before
      cases merges : mode.merge earlier record with
      | ok merged => exact holds (by rw [← before]; simp only [MergeMode.absorb, merges]; rfl)
      | error error =>
          refine ⟨h.descriptor, h.ofMode, fun id => ?_⟩
          by_cases here : id = record.id
          · subst here
            rw [own, MergeMode.gather_concat, ← before]
            simp only [MergeMode.absorb, merges]
            exact staged
          · rw [others here]
            exact h.staged id

end Worker.Gathers

-----------------------------------------------------------------------------------------
-- Rows
-----------------------------------------------------------------------------------------

section

variable {entity : Entity} {S : Type} [TableStore S] {store : S}

/-- A row that is not a record is an error to whoever fetches it. -/
theorem Descriptor.fetch_undecodable [HasPlainForm S] {descriptor : Descriptor} {id : String}
    {row : Document} (present : stored? store descriptor.table id = some (some row))
    (unreadable : (Record.decode? (.ofDocument row) : Option (Record entity)) = none)
    : descriptor.fetch (Record entity) store id = .error .undecodable := by
  have unreadable : (StreamData.decode? (.ofDocument row) : Option (Record entity)) = none :=
    unreadable
  simp only [fetch, row?_eq_stored?, present, PlainStore.read, bind, Except.bind, unreadable]

/-- A row that cannot be read is an error as well. -/
theorem Descriptor.fetch_unreadable [HasPlainForm S] {descriptor : Descriptor} {id : String}
    (present : stored? store descriptor.table id = some none)
    : descriptor.fetch (Record entity) store id = .error .undecodable := by
  simp only [fetch, row?_eq_stored?, present, PlainStore.read, bind, Except.bind]

namespace Worker

variable {worker : Worker (Record entity)} {record : Record entity}

theorem prepare_of_fetch_error {error : Error}
    (fails : worker.descriptor.fetch (Record entity) store record.id = .error error)
    : worker.prepare store record = .error error := by
  have fails : worker.descriptor.fetch (Record entity) store (StreamData.id record)
      = .error error :=
    fails
  simp only [prepare, fails]
  rfl

theorem prepare_of_merge_error {persisted : Record entity} {error : Error}
    (fetched : worker.descriptor.fetch (Record entity) store record.id = .ok (some persisted))
    (fails : worker.mode.merge persisted record = .error error)
    : worker.prepare store record = .error error := by
  have fetched : worker.descriptor.fetch (Record entity) store (StreamData.id record)
      = .ok (some persisted) :=
    fetched
  simp only [prepare, fetched]
  change (worker.mode.merge persisted record >>= worker.descriptor.prepareUpdate) = _
  rw [fails]
  rfl

/-- The operation for a staged record, if there is one, rewrites the row of its id. -/
theorem after_prepare [HasPlainForm S] (takes : worker.descriptor.TakesRecords)
    {written? : Option (Record entity)}
    (row : stored? store worker.descriptor.table record.id
      = written?.map fun written => some ((kind store).kept written.document))
    : (worker.prepare store record).toOption.toList.foldl
          (fun row operation => operation.after (kind store).row row)
          (stored? store worker.descriptor.table record.id)
      = ((kind store).rewrite worker.mode written? (some record)).map fun written =>
          some ((kind store).kept written.document) := by
  cases written? with
  | none =>
      rw [(prepare_insert takes row).2, row]
      exact congrArg some ((kind store).row_document record)
  | some written =>
      have row : stored? store worker.descriptor.table record.id
          = some (some ((kind store).kept written.document)) :=
        row
      by_cases finite : written.IsFinite
      · have decoded := (kind store).decode?_kept finite
        simp only [BackendKind.rewrite, if_pos finite]
        cases merges : worker.mode.merge ((kind store).keptRecord written) record with
        | error error =>
            rw [prepare_of_merge_error (Descriptor.fetch_present row decoded) merges, row]
            rfl
        | ok merged =>
            rw [(prepare_update takes row decoded merges).2, row]
            simp [Except.toOption, Operation.after, Operation.written, BackendKind.overwrite_kept,
              BackendKind.row_document]
      · have unreadable := (kind store).decode?_kept_of_not_finite finite
        rw [prepare_of_fetch_error (Descriptor.fetch_undecodable row unreadable), row]
        simp [BackendKind.rewrite, finite, Except.toOption]

end Worker

end

-----------------------------------------------------------------------------------------
-- What every step preserves
-----------------------------------------------------------------------------------------

namespace Persistence

variable {entity : Entity} {S : Type}

/-- A worker of a mode over a store, before anything was handed over. -/
def start (entity : Entity) (mode : MergeMode) (descriptor : Descriptor) (store : S)
    : Persistence entity S where
  worker := { descriptor, mode }
  store := store

/-- The records of an id in some batches, one behind the other. -/
theorem flatten_map_ofId (id : String) (batches : List (List (Record entity)))
    : (batches.map (ofId id)).flatten = ofId id batches.flatten := by
  rw [ofId, List.filter_flatten]
  rfl

variable [TableStore S] [HasPlainForm S]

/-- What links the staged records and the batch in flight to the records handed over, with some of
these left out.
-/
structure Tracks (descriptor : Descriptor) (mode : MergeMode) (kind : BackendKind)
    (state : Persistence entity S)
    : Prop where
  ofKind : HasPlainForm.kind state.store = kind
  gathers : state.worker.Gathers descriptor mode state.waiting
  inFlight (operations : List Operation)
    : state.inFlight = some operations → ∃ worker : Worker (Record entity),
        worker.Gathers descriptor mode state.drained
        ∧ operations = worker.operations state.store

theorem tracks_start (entity : Entity) (mode : MergeMode) (descriptor : Descriptor) (store : S)
    : (start entity mode descriptor store).Tracks descriptor mode (kind store) :=
  ⟨rfl, ⟨rfl, rfl, fun _ => rfl⟩, fun _ none => absurd none (by simp [start])⟩

namespace Tracks

variable {descriptor : Descriptor} {mode : MergeMode} {kind : BackendKind}
variable {state : Persistence entity S}

/-- Every step keeps the link. -/
theorem step (h : state.Tracks descriptor mode kind) (step : PersistenceStep entity)
    : (state.step step).Tracks descriptor mode kind := by
  cases step with
  | ingest record => exact ⟨h.ofKind, h.gathers.ingest record, h.inFlight⟩
  | drain =>
      cases flight : state.inFlight with
      | some operations =>
          simp only [Persistence.step, flight]
          exact h
      | none =>
          simp only [Persistence.step, flight]
          refine ⟨h.ofKind, h.gathers.cleared, ?_⟩
          rintro operations ⟨⟩
          exact ⟨state.worker, h.gathers, rfl⟩
  | flush timeout deadline =>
      cases flight : state.inFlight with
      | none =>
          simp only [Persistence.step, flight]
          exact h
      | some operations =>
          simp only [Persistence.step, flight]
          refine ⟨?_, h.gathers, fun _ none => absurd none (by simp)⟩
          exact (Pipeline.kind_flush _ deadline state.store).1.trans h.ofKind

end Tracks

/-- A batch that is committed does to the row of an id what the operation for the record staged
under it does.
-/
theorem stored?_flush_operations {worker : Worker (Record entity)} {descriptor : Descriptor}
    {mode : MergeMode} {records : List (Record entity)}
    (gathers : worker.Gathers descriptor mode records) (timeout : Duration) (deadline : Deadline)
    (store : S) (id : String)
    : let pipeline : Pipeline := ⟨timeout, worker.operations store⟩
      stored? (pipeline.flush BatchSink.store deadline store).state descriptor.table id
        = if pipeline.commits deadline store then
            ((worker.staged.get? id).bind fun record =>
                (worker.prepare store record).toOption).toList.foldl
              (fun row operation => operation.after (HasPlainForm.kind store).row row)
              (stored? store descriptor.table id)
          else stored? store descriptor.table id := by
  intro pipeline
  rw [Pipeline.stored?_flush, ← gathers.descriptor, worker.filter_operations gathers.keyed]

/-- What links a state and the rows to the records handed over, with some of these lost on the way.
-/
structure Traced (descriptor : Descriptor) (mode : MergeMode) (kind : BackendKind)
    (state : Persistence entity S)
    : Prop extends state.Tracks descriptor mode kind where
  written (id : String)
    : stored? state.store descriptor.table id
      = (kind.lastWritten mode (state.delivered.map (ofId id))).map fun written =>
          some (kind.kept written.document)

namespace Traced

variable {descriptor : Descriptor} {mode : MergeMode} {kind : BackendKind}
variable {state : Persistence entity S}

/-- A batch that is committed rewrites the row of every id, with what was gathered of the id. -/
theorem flushed (takes : descriptor.TakesRecords) (h : state.Traced descriptor mode kind)
    {worker : Worker (Record entity)} (gathers : worker.Gathers descriptor mode state.drained)
    (timeout : Duration) (deadline : Deadline)
    (committed : Pipeline.commits ⟨timeout, worker.operations state.store⟩ deadline state.store
      = true) (id : String)
    : stored? (Pipeline.flush ⟨timeout, worker.operations state.store⟩ BatchSink.store deadline
          state.store).state descriptor.table id
      = (kind.lastWritten mode ((state.delivered ++ [state.drained]).map (ofId id))).map
          fun written => some (kind.kept written.document) := by
  have before := h.written id
  rw [List.map_append, List.map_singleton, BackendKind.lastWritten_concat, ← gathers.staged id]
  rw [stored?_flush_operations gathers, if_pos committed]
  cases staged : worker.staged.get? id with
  | none =>
      refine before.trans ?_
      cases kind.lastWritten mode (state.delivered.map (ofId id)) <;> rfl
  | some record =>
      cases gathers.keyed id record staged
      rw [← h.ofKind, ← gathers.ofMode, ← gathers.descriptor] at before ⊢
      exact worker.after_prepare (gathers.descriptor ▸ takes) before

/-- Every step keeps the link. -/
theorem step (takes : descriptor.TakesRecords) (h : state.Traced descriptor mode kind)
    (step : PersistenceStep entity)
    : (state.step step).Traced descriptor mode kind := by
  refine ⟨h.toTracks.step step, ?_⟩
  cases step with
  | ingest record => exact h.written
  | drain => cases flight : state.inFlight <;> simpa [Persistence.step, flight] using h.written
  | flush timeout deadline =>
      cases flight : state.inFlight with
      | none => simpa [Persistence.step, flight] using h.written
      | some operations =>
          -- Nothing was written since the drain, so the operations fit the rows of now.
          obtain ⟨worker, gathers, rfl⟩ := h.inFlight operations flight
          simp only [Persistence.step, flight]
          intro id
          cases committed : Pipeline.commits ⟨timeout, worker.operations state.store⟩ deadline
              state.store with
          | true => exact h.flushed takes gathers timeout deadline committed id
          | false =>
              have before := h.written id
              simp only [Pipeline.stored?_flush, committed]
              simpa using before

/-- Every run keeps the link. -/
theorem run (takes : descriptor.TakesRecords) (h : state.Traced descriptor mode kind)
    (steps : List (PersistenceStep entity))
    : (state.run steps).Traced descriptor mode kind :=
  run_preserves (fun _ step h => h.step takes step) h steps

/-- A row is there exactly if a record of its id was delivered. -/
theorem exists_row_iff (h : state.Traced descriptor mode kind) (id : String)
    : (∃ row, TableStore.row? state.store descriptor.table id = .ok (some row))
      ↔ ∃ record ∈ state.delivered.flatten, record.id = id := by
  have some : kind.lastWritten mode (state.delivered.map (ofId id)) ≠ none
      ↔ ∃ record ∈ state.delivered.flatten, record.id = id := by
    rw [ne_eq, BackendKind.lastWritten_eq_none_iff, flatten_map_ofId, ofId, List.filter_eq_nil_iff]
    simp only [decide_eq_true_eq, not_forall, not_not, exists_prop]
  simp only [row?_eq_ok_some_iff, h.written id, ← some, Option.ne_none_iff_exists',
    Option.map_eq_some_iff]
  constructor
  · rintro ⟨_, written, last, _⟩
    exact ⟨written, last⟩
  · rintro ⟨written, last⟩
    exact ⟨_, written, last, rfl⟩

end Traced

/-- A worker over a table without rows has nothing written. -/
theorem traced_start {descriptor : Descriptor} {store : S} (mode : MergeMode)
    (empty : ∀ id, TableStore.row? store descriptor.table id = .ok none)
    : (start entity mode descriptor store).Traced descriptor mode (kind store) := by
  refine ⟨tracks_start entity mode descriptor store, fun id => ?_⟩
  exact row?_eq_ok_none_iff.mp (empty id)

omit [HasPlainForm S] in
/-- What was delivered stays delivered, by induction over the steps. -/
theorem exists_delivered_run (state : Persistence entity S) (steps : List (PersistenceStep entity))
    : ∃ later, (state.run steps).delivered = state.delivered ++ later := by
  induction steps generalizing state with
  | nil => exact ⟨[], (List.append_nil _).symm⟩
  | cons step rest ih =>
      have first : ∃ later, (state.step step).delivered = state.delivered ++ later := by
        cases step with
        | ingest record => exact ⟨[], (List.append_nil _).symm⟩
        | drain => cases flight : state.inFlight <;> exact ⟨[], by simp [Persistence.step, flight]⟩
        | flush timeout deadline =>
            cases flight : state.inFlight with
            | none => exact ⟨[], by simp [Persistence.step, flight]⟩
            | some operations =>
                simp only [Persistence.step, flight]
                exact ⟨_, rfl⟩
      obtain ⟨early, first⟩ := first
      obtain ⟨late, more⟩ := ih (state.step step)
      exact ⟨early ++ late, by rw [← List.append_assoc, ← first]; exact more⟩

end Persistence

-----------------------------------------------------------------------------------------
-- Rows that can be read
-----------------------------------------------------------------------------------------

/-- A row behind which stands an infinite double or a NaN is never written again, by induction over
the deliveries.
-/
theorem BackendKind.lastWritten_append_of_not_finite {entity : Entity} {kind : BackendKind}
    {mode : MergeMode} {deliveries : List (List (Record entity))} {written : Record entity}
    (last : kind.lastWritten mode deliveries = some written) (infinite : ¬written.IsFinite)
    (later : List (List (Record entity)))
    : kind.lastWritten mode (deliveries ++ later) = some written := by
  induction later using List.reverseRecOn with
  | nil => rw [List.append_nil, last]
  | append_singleton earlier records ih =>
      rw [← List.append_assoc, lastWritten_concat, ih]
      cases mode.gather records with
      | none => rfl
      | some delivered => exact if_neg infinite

namespace Persistence

/-- A row is there exactly if a record of its id was delivered. It holds the record that it was last
written from, and can be read exactly if this record is finite. Otherwise whoever fetches it gets an
error, every later record of its id is lost when it is to be prepared, and the row stays as it is.
-/
theorem rows_readable_iff_finite {entity : Entity} (mode : MergeMode) {descriptor : Descriptor}
    (takes : descriptor.TakesRecords) {store : Backend}
    (empty : ∀ id, TableStore.row? store descriptor.table id = .ok none)
    (steps : List (PersistenceStep entity)) (id : String)
    : let done := (start entity mode descriptor store).run steps
      let written? := (kind store).lastWritten mode (done.delivered.map (ofId id))
      ((∃ row, TableStore.row? done.store descriptor.table id = .ok (some row))
          ↔ ∃ record ∈ done.delivered.flatten, record.id = id)
        ∧ TableStore.row? done.store descriptor.table id
          = .ok (written?.map fun written => (kind store).kept written.document)
        ∧ ∀ written, written? = some written →
          (written.IsFinite → descriptor.fetch (Record entity) done.store id
            = .ok (some ((kind store).keptRecord written)))
          ∧ (¬written.IsFinite →
            descriptor.fetch (Record entity) done.store id = .error .undecodable
            ∧ (∀ record : Record entity, record.id = id →
              done.worker.prepare done.store record = .error .undecodable)
            ∧ ∀ more, TableStore.row? (done.run more).store descriptor.table id
              = TableStore.row? done.store descriptor.table id) := by
  intro done written?
  have traced : done.Traced descriptor mode (kind store) :=
    (traced_start mode empty).run takes steps
  refine ⟨traced.exists_row_iff id, ?_, fun written last => ?_⟩
  · rw [row?_eq_stored?, traced.written id]
    change PlainStore.read (written?.map _) = _
    cases written? <;> rfl
  have row : stored? done.store descriptor.table id
      = some (some ((kind store).kept written.document)) := by
    rw [traced.written id]
    exact congrArg _ last
  constructor
  · intro finite
    exact Descriptor.fetch_present row ((kind store).decode?_kept finite)
  · intro infinite
    have unreadable := (kind store).decode?_kept_of_not_finite infinite
    have fetched := Descriptor.fetch_undecodable row unreadable
    refine ⟨fetched, ?_, fun more => ?_⟩
    · rintro record rfl
      exact Worker.prepare_of_fetch_error (traced.gathers.descriptor ▸ fetched)
    · obtain ⟨later, delivered⟩ := done.exists_delivered_run more
      rw [row?_eq_stored?, row?_eq_stored?, (traced.run takes more).written id, delivered,
        List.map_append, BackendKind.lastWritten_append_of_not_finite last infinite, row]
      rfl

/-- Two finite samples whose sum is infinite leave a row that cannot be read. -/
theorem rows_readable_iff_finite_infinite_sum
    : let sample : Collector.RecordKind.cpuMetric.Carrier :=
        ⟨[.string "a", .string "m", .long 20240106, .integer 3, .double ⟨0x7fe55c576d815726⟩,
          .long 1], rfl⟩
      let daily : Descriptor := .bucketed "day_cpu_metric" .day
      let done := (start Collector.RecordKind.cpuMetric.entity .lenient daily
        (Backend.ofKind .database)).run
          [.ingest sample, .ingest sample, .drain, .flush 20000 .ahead]
      sample.IsFinite
        ∧ daily.fetch Collector.RecordKind.cpuMetric.Carrier done.store "a" = .error .undecodable
        ∧ done.worker.prepare done.store sample = .error .undecodable := by
  intro sample daily done
  have finite : sample.IsFinite := by decide
  obtain ⟨_, _, readable⟩ := rows_readable_iff_finite .lenient (⟨rfl, rfl⟩ : daily.TakesRecords)
    (fun _ => rfl : ∀ id, TableStore.row? (Backend.ofKind .database) daily.table id = .ok none)
    [.ingest sample, .ingest sample, .drain, .flush 20000 .ahead] "a"
  have infinite : (BackendKind.database.lastWritten .lenient (done.delivered.map (ofId "a"))).any
      (fun written => !decide written.IsFinite) = true := by
    decide +kernel
  obtain ⟨written, last, infinite⟩ := (Option.any_eq_true _ _).mp infinite
  obtain ⟨_, stuck⟩ := readable written last
  obtain ⟨fetched, lost, _⟩ := stuck (of_decide_eq_false (Bool.not_eq_true' _ ▸ infinite))
  exact ⟨finite, fetched, lost sample rfl⟩

end Persistence

end Storage

end Telemetry
