import Mathlib.Logic.Function.Iterate
import Telemetry.Proofs.Storage.WrittenRecords

/-! Rows of tables that are updated in place. A worker neither creates nor removes them and writes
some of their columns alone, but a transactional store writes the text of the whole row anew, so
that a double in any other column may come back as one of its neighbours.
-/

namespace Telemetry

open Storage HasPlainForm

-----------------------------------------------------------------------------------------
-- Rows and what cycles leave of them
-----------------------------------------------------------------------------------------

/-- The record of a row with a staged record merged into it, if the row can be read and the two can
be merged.
-/
def MergeMode.renew? {entity : Entity} (mode : MergeMode) (row : Document)
    (staged? : Option (Record entity))
    : Option (Record entity) := do
  let persisted ← Record.decode? (.ofDocument row)
  (mode.merge persisted (← staged?)).toOption

namespace Storage

/-- The columns that are not both written by a table and columns of its entity. -/
def SparedBy (entity : Entity) (columns : List String) (name : String) : Prop :=
  name ∉ columns ∨ name ∉ entity.names

/-- A row after some batches: it is there if it was there, cannot be read if it could not, and each
column that is spared holds what a store of a kind gives back of it after keeping it so many times.
-/
inductive Spared (kind : BackendKind) (spared : String → Prop) (times : Nat)
    : Option Row → Option Row → Prop where
  | absent : Spared kind spared times none none
  | unreadable : Spared kind spared times (some none) (some none)
  | present {row changed : Document}
      (same : ∀ name, spared name →
        changed.get? name = (row.get? name).map kind.keptPlain^[times])
      : Spared kind spared times (some (some row)) (some (some changed))

namespace Spared

variable {kind : BackendKind} {spared : String → Prop} {times more : Nat}
variable {first second third : Option Row}

theorem refl (kind : BackendKind) (spared : String → Prop) (row? : Option Row)
    : Spared kind spared 0 row? row? := by
  rcases row? with _ | _ | row
  · exact .absent
  · exact .unreadable
  · exact .present fun name _ => by simp

theorem trans (h : Spared kind spared times first second)
    (later : Spared kind spared more second third)
    : Spared kind spared (more + times) first third := by
  cases h with
  | absent => cases later; exact .absent
  | unreadable => cases later; exact .unreadable
  | present same =>
      cases later with
      | present sameLater =>
          refine .present fun name outside => ?_
          rw [sameLater name outside, same name outside, Option.map_map, Function.iterate_add]

theorem eq_none (h : Spared kind spared times none second) : second = none := by
  cases h
  rfl

theorem eq_unreadable (h : Spared kind spared times (some none) second)
    : second = some none := by
  cases h
  rfl

theorem exists_changed {row : Document} (h : Spared kind spared times (some (some row)) second)
    : ∃ changed, second = some (some changed) ∧ ∀ name, spared name →
        changed.get? name = (row.get? name).map kind.keptPlain^[times] := by
  cases h with
  | present same => exact ⟨_, rfl, same⟩

end Spared

namespace BackendKind

variable {entity : Entity} {kind : BackendKind} {mode : MergeMode} {columns : List String}
variable {row : Document} {staged? : Option (Record entity)}

/-- A row with some columns written from the merge with a staged record, as a store of a kind gives
it back; without such a merge the row stays as it is.
-/
def renewRow (kind : BackendKind) (mode : MergeMode) (columns : List String)
    (staged? : Option (Record entity)) (row : Document)
    : Document :=
  match mode.renew? row staged? with
  | some merged => kind.kept
      (overwrite row (merged.document.filter fun column _ => columns.contains column))
  | none => row

/-- A written column holds the merged value. -/
theorem get?_renewRow_of_mem {merged : Record entity}
    (renews : mode.renew? row staged? = some merged)
    {column : Column} (member : column ∈ entity.columns) (listed : column.name ∈ columns)
    : (kind.renewRow mode columns staged? row).get? column.name
      = some (kind.keptPlain (Record.encodeValue (merged.value column))) := by
  simp only [renewRow, renews, get?_kept, overwrite, KeyMap.get?_insertAll_entries,
    KeyMap.get?_filter, merged.get?_document member]
  simp [Option.filter, listed]

/-- A column that is spared is kept once more. -/
theorem get?_renewRow_of_spared {merged : Record entity}
    (renews : mode.renew? row staged? = some merged) {name : String}
    (spared : SparedBy entity columns name)
    : (kind.renewRow mode columns staged? row).get? name = (row.get? name).map kind.keptPlain := by
  have nothing : (merged.document.filter fun column _ => columns.contains column).get? name
      = none := by
    rw [KeyMap.get?_filter]
    rcases spared with unlisted | unknown
    · cases merged.document.get? name <;> simp [Option.filter, unlisted]
    · rw [merged.get?_document_of_notMem unknown]
      rfl
  simp only [renewRow, renews, get?_kept, overwrite, KeyMap.get?_insertAll_entries, nothing,
    Option.none_or]

theorem spared_renewRow (kind : BackendKind) (mode : MergeMode) (columns : List String)
    (staged? : Option (Record entity)) (row : Document)
    : ∃ times ≤ 1, Spared kind (SparedBy entity columns) times (some (some row))
        (some (some (kind.renewRow mode columns staged? row))) := by
  cases renews : mode.renew? row staged? with
  | none =>
      have same : kind.renewRow mode columns staged? row = row := by simp only [renewRow, renews]
      exact ⟨0, Nat.zero_le 1, same.symm ▸ .refl kind _ (some (some row))⟩
  | some merged =>
      exact ⟨1, Nat.le_refl 1, .present fun name spared => get?_renewRow_of_spared renews spared⟩

end BackendKind

-----------------------------------------------------------------------------------------
-- What workers prepare
-----------------------------------------------------------------------------------------

namespace Worker

variable {entity : Entity} {S : Type} [TableStore S] [HasPlainForm S]
variable {worker : Worker (Record entity)} {store : S} {table : String} {columns : List String}

/-- Without a row nothing is prepared. -/
theorem prepare_of_absent (ofTable : worker.descriptor = .inPlace table columns)
    {record : Record entity} (absent : stored? store table record.id = none)
    : worker.prepare store record
      = .error (.invariantViolation (.notInsertable table record.id)) := by
  have fetched : worker.descriptor.fetch (Record entity) store (StreamData.id record) = .ok none :=
    Descriptor.fetch_absent (by rw [ofTable]; exact absent)
  simp only [prepare, fetched]
  change worker.descriptor.prepareInsert record = _
  rw [ofTable]
  rfl

/-- The operation for a record renews the row, if it can be read. -/
theorem after_prepare_present (ofTable : worker.descriptor = .inPlace table columns)
    {record : Record entity} {row : Document}
    (present : stored? store worker.descriptor.table record.id = some (some row))
    : ((some record).bind fun record => (worker.prepare store record).toOption).toList.foldl
          (fun row operation => operation.after (kind store).row row) (some (some row))
      = some (some ((kind store).renewRow worker.mode columns (some record) row)) := by
  rw [Option.bind_some]
  cases read : (Record.decode? (.ofDocument row) : Option (Record entity)) with
  | none =>
      have fails := prepare_of_fetch_error (Descriptor.fetch_undecodable present read)
      simp [fails, BackendKind.renewRow, MergeMode.renew?, read, Except.toOption]
  | some persisted =>
      have fetched := Descriptor.fetch_present present read
      cases merges : worker.mode.merge persisted record with
      | error error =>
          simp [prepare_of_merge_error fetched merges, BackendKind.renewRow, MergeMode.renew?,
            read, merges, Except.toOption]
      | ok merged =>
          let written := overwrite row (worker.descriptor.restrict merged.document)
          have restricted : worker.descriptor.restrict merged.document
              = merged.document.filter fun column _ => columns.contains column := by
            simp only [Descriptor.restrict, ofTable, Descriptor.inPlace]
          have kept : (kind store).row written = some ((kind store).kept written) :=
            Descriptor.row_overwrite_restrict present worker.descriptor merged
          simp only [prepare_present present read merges, Except.toOption, Option.toList_some,
            List.foldl_cons, List.foldl_nil, Operation.after, Operation.written, Option.bind_some]
          rw [kept]
          simp [written, restricted, BackendKind.renewRow, MergeMode.renew?, read, merges,
            Except.toOption]

/-- The operation for the record staged under an id renews the row, if there is one. -/
theorem after_prepare_inPlace (ofTable : worker.descriptor = .inPlace table columns)
    (keyed : worker.IsKeyed) (store : S) (id : String)
    : ((worker.staged.get? id).bind fun record =>
          (worker.prepare store record).toOption).toList.foldl
          (fun row operation => operation.after (kind store).row row) (stored? store table id)
      = (stored? store table id).map
          (Option.map ((kind store).renewRow worker.mode columns (worker.staged.get? id))) := by
  have named : worker.descriptor.table = table := by rw [ofTable]; rfl
  cases present : stored? store table id with
  | none =>
      cases staged : worker.staged.get? id with
      | none => rfl
      | some record =>
          cases keyed id record staged
          simp [prepare_of_absent ofTable present, Except.toOption]
  | some held =>
      cases staged : worker.staged.get? id with
      | none => cases held <;> simp [BackendKind.renewRow, MergeMode.renew?]
      | some record =>
          cases keyed id record staged
          rw [← named] at present
          cases held with
          | none =>
              have fails := prepare_of_fetch_error (Descriptor.fetch_unreadable present)
              simp [fails, Except.toOption]
          | some row =>
              exact after_prepare_present ofTable present

end Worker

-----------------------------------------------------------------------------------------
-- Runs
-----------------------------------------------------------------------------------------

namespace Persistence

variable {entity : Entity} {S : Type} [TableStore S] [HasPlainForm S]

/-- A flush of what a worker prepared touches no other table. -/
theorem stored?_flush_other {worker : Worker (Record entity)} {other : String}
    (ne : other ≠ worker.descriptor.table) (timeout : Duration) (deadline : Deadline) (store : S)
    (id : String)
    : stored? (Pipeline.flush ⟨timeout, worker.operations store⟩ BatchSink.store deadline
        store).state other id = stored? store other id := by
  refine Pipeline.stored?_flush_of_notMem fun operation member same => ne ?_
  obtain ⟨_, _, _, prepared⟩ := Worker.mem_operations.mp member
  exact (congrArg Prod.fst same).symm.trans (Worker.prepare_names prepared).1

/-- A batch that is committed renews the row of every id, and any other one leaves it alone. -/
theorem stored?_flush_inPlace {worker : Worker (Record entity)} {table : String}
    {columns : List String} {mode : MergeMode} {records : List (Record entity)}
    (gathers : worker.Gathers (.inPlace table columns) mode records) (timeout : Duration)
    (deadline : Deadline) (store : S) (id : String)
    : let pipeline : Pipeline := ⟨timeout, worker.operations store⟩
      stored? (pipeline.flush BatchSink.store deadline store).state table id
        = if pipeline.commits deadline store then (stored? store table id).map
            (Option.map ((kind store).renewRow mode columns (worker.staged.get? id)))
          else stored? store table id := by
  intro pipeline
  have renewed := worker.after_prepare_inPlace gathers.descriptor gathers.keyed store id
  rw [gathers.ofMode] at renewed
  rw [← renewed]
  exact stored?_flush_operations gathers timeout deadline store id

/-- What becomes of the rows of a store in a run with so many committed batches: those of the table
are spared all but the written columns, and those of other tables stay.
-/
structure RowsSpared (entity : Entity) (table : String) (columns : List String) (original store : S)
    (batches : Nat)
    : Prop where
  rows (id : String)
    : ∃ times ≤ batches, Spared (kind original) (SparedBy entity columns) times
        (stored? original table id) (stored? store table id)
  others (other id : String) : other ≠ table → stored? store other id = stored? original other id

/-- What every step preserves. -/
structure Spares (table : String) (columns : List String) (mode : MergeMode) (original : S)
    (state : Persistence entity S)
    : Prop extends state.Tracks (.inPlace table columns) mode (kind original) where
  spared : RowsSpared entity table columns original state.store state.delivered.length

namespace Spares

variable {table : String} {columns : List String} {mode : MergeMode} {original : S}
variable {state : Persistence entity S}

theorem start (entity : Entity) (mode : MergeMode) (table : String) (columns : List String)
    (store : S)
    : Spares table columns mode store (start entity mode (.inPlace table columns) store) :=
  ⟨tracks_start entity mode _ store, fun _ => ⟨0, Nat.le_refl 0, .refl _ _ _⟩, fun _ _ _ => rfl⟩

/-- A flush leaves every row as it was, or spares its other columns once more. -/
theorem flushed (h : state.Spares table columns mode original) {operations : List Operation}
    (flight : state.inFlight = some operations) (timeout : Duration) (deadline : Deadline)
    : let pipeline : Pipeline := ⟨timeout, operations⟩
      RowsSpared entity table columns original
        (pipeline.flush BatchSink.store deadline state.store).state
        (state.delivered ++ if pipeline.commits deadline state.store then [state.drained]
          else []).length := by
  obtain ⟨worker, gathers, rfl⟩ := h.inFlight operations flight
  intro pipeline
  constructor
  · intro id
    obtain ⟨times, bound, earlier⟩ := h.spared.rows id
    rw [stored?_flush_inPlace gathers timeout deadline state.store id, List.length_append]
    split
    · rw [List.length_singleton]
      rcases before : stored? state.store table id with _ | _ | row
      · rw [before] at earlier
        exact ⟨times, by omega, earlier⟩
      · rw [before] at earlier
        exact ⟨times, by omega, earlier⟩
      · rw [before] at earlier
        obtain ⟨once, atMost, renewed⟩ := (kind state.store).spared_renewRow mode columns
          (worker.staged.get? id) row
        rw [h.ofKind] at renewed ⊢
        exact ⟨once + times, by omega, earlier.trans renewed⟩
    · exact ⟨times, bound, earlier⟩
  · intro other id ne
    have named : other ≠ worker.descriptor.table := by rwa [gathers.descriptor]
    rw [stored?_flush_other named]
    exact h.spared.others other id ne

/-- Every step spares the rows. -/
theorem step (h : state.Spares table columns mode original) (step : PersistenceStep entity)
    : (state.step step).Spares table columns mode original := by
  refine ⟨h.toTracks.step step, ?_⟩
  cases step with
  | ingest record => exact h.spared
  | drain => cases flight : state.inFlight <;> simpa [Persistence.step, flight] using h.spared
  | flush timeout deadline =>
      cases flight : state.inFlight with
      | none => simpa [Persistence.step, flight] using h.spared
      | some operations =>
          simp only [Persistence.step, flight]
          exact h.flushed flight timeout deadline

/-- Every run spares the rows. -/
theorem run (h : state.Spares table columns mode original) (steps : List (PersistenceStep entity))
    : (state.run steps).Spares table columns mode original :=
  run_preserves (fun _ step h => h.step step) h steps

end Spares

-----------------------------------------------------------------------------------------
-- Cycles
-----------------------------------------------------------------------------------------

omit [HasPlainForm S] in
/-- Ingests concern the worker alone. -/
theorem run_ingests (state : Persistence entity S) {steps : List (PersistenceStep entity)}
    (ingests : ∀ step ∈ steps, ∃ record, step = .ingest record)
    : (state.run steps).store = state.store ∧ (state.run steps).inFlight = state.inFlight := by
  induction steps generalizing state with
  | nil => exact ⟨rfl, rfl⟩
  | cons step rest ih =>
      obtain ⟨record, rfl⟩ := ingests step List.mem_cons_self
      exact ih _ fun step member => ingests step (List.mem_cons_of_mem _ member)

omit [HasPlainForm S] in
/-- A cycle flushes what the worker prepares at its start, whatever is ingested meanwhile. -/
theorem store_cycle {state : Persistence entity S} {between : List (PersistenceStep entity)}
    (idle : state.inFlight = none) (ingests : ∀ step ∈ between, ∃ record, step = .ingest record)
    (timeout : Duration) (deadline : Deadline)
    : (state.run (.drain :: between ++ [.flush timeout deadline])).store
      = (Pipeline.flush ⟨timeout, state.worker.operations state.store⟩ BatchSink.store deadline
          state.store).state := by
  obtain ⟨store, flight⟩ := run_ingests (state.step .drain) ingests
  have split : state.run (.drain :: between ++ [.flush timeout deadline])
      = ((state.step .drain).run between).step (.flush timeout deadline) := by
    simp [Persistence.run]
  have drained : (state.step .drain).inFlight = some (state.worker.operations state.store) := by
    simp only [Persistence.step, idle]
  have same : (state.step .drain).store = state.store := by
    simp only [Persistence.step, idle]
  rw [split]
  simp only [Persistence.step.eq_def (.run _ _), flight.trans drained, store, same]

/-- A flush in time renews every row, and one that is dropped for its deadline renews none. -/
theorem renewed_flush {worker : Worker (Record entity)} {table : String} {columns : List String}
    {mode : MergeMode} {records : List (Record entity)}
    (gathers : worker.Gathers (.inPlace table columns) mode records) (timeout : Duration)
    (deadline : Deadline) {store : S} {id : String} {row : Document}
    (present : stored? store table id = some (some row))
    : let flush := Pipeline.flush ⟨timeout, worker.operations store⟩ BatchSink.store deadline store
      stored? flush.state table id = some (some (if (kind store).drops deadline then row
        else (kind store).renewRow mode columns (worker.staged.get? id) row)) := by
  intro flush
  obtain ⟨committed, _⟩ := worker.flush_operations gathers.keyed timeout deadline store
  cases late : (kind store).drops deadline with
  | true => exact (Pipeline.stored?_flush_of_drops late table id).trans present
  | false =>
      rw [late, Bool.not_false, Bool.or_true] at committed
      rw [stored?_flush_inPlace gathers timeout deadline store id, if_pos committed, present]
      rfl

/-- A cycle in which nothing staged has a row leaves the store alone. -/
theorem flush_of_absent {worker : Worker (Record entity)} {table : String} {columns : List String}
    (ofTable : worker.descriptor = .inPlace table columns) (keyed : worker.IsKeyed) {store : S}
    (absent : ∀ id record, worker.staged.get? id = some record → stored? store table id = none)
    (timeout : Duration) (deadline : Deadline)
    : (Pipeline.flush ⟨timeout, worker.operations store⟩ BatchSink.store deadline store).state
      = store := by
  have nothing : worker.operations store = [] := by
    refine List.eq_nil_iff_forall_not_mem.mpr fun operation member => ?_
    obtain ⟨id, record, staged, prepared⟩ := Worker.mem_operations.mp member
    have none := absent id record staged
    rw [← keyed id record staged] at none
    cases (Worker.prepare_of_absent ofTable none).symm.trans prepared
  rw [nothing]
  rfl

/-- Tables that are updated in place are touched in their written columns alone. Whatever rows there
are and whatever is ingested and flushed, rows are neither created nor removed, and a column that is
not both listed and a column of the entity holds what it held, as the store gives it back after
keeping it once for some of the batches that were committed. A row that cannot be read stays so. A
record without a row is dropped. A cycle that is not dropped for its deadline writes to each
row that can be read and merged with what is staged the merged values of the listed columns, and a
cycle leaves all other rows as they are; deletions of history find nothing to delete. A store in
memory keeps every value, and a transactional one all but the doubles that its text does not read
back.
-/
theorem in_place_rows_spared {entity : Entity} (mode : MergeMode) (table : String)
    (columns : List String) (store : Backend) (steps : List (PersistenceStep entity))
    : let descriptor := Descriptor.inPlace table columns
      let done := (start entity mode descriptor store).run steps
      let keptPlain := (kind store).keptPlain
      (∀ id, (TableStore.row? store table id = .ok none →
            TableStore.row? done.store table id = .ok none)
          ∧ (∀ error, TableStore.row? store table id = .error error →
            TableStore.row? done.store table id = .error error)
          ∧ ∀ row, TableStore.row? store table id = .ok (some row) →
            ∃ changed, TableStore.row? done.store table id = .ok (some changed)
              ∧ (∃ times ≤ done.delivered.length, ∀ name, SparedBy entity columns name →
                changed.get? name = (row.get? name).map keptPlain^[times])
              ∧ ∀ name, SparedBy entity columns name →
                (∀ value, row.get? name = some value → keptPlain value = value) →
                changed.get? name = row.get? name)
        ∧ (∀ other id, other ≠ table →
          TableStore.row? done.store other id = TableStore.row? store other id)
        ∧ (∀ record : Record entity, TableStore.row? done.store table record.id = .ok none →
          done.worker.prepare done.store record
            = .error (.invariantViolation (.notInsertable table record.id)))
        ∧ (∀ between timeout deadline, done.inFlight = none →
          (∀ step ∈ between, ∃ record, step = .ingest record) →
          let cycled := (done.run (.drain :: between ++ [.flush timeout deadline])).store
          ((∀ id record, done.worker.staged.get? id = some record →
              TableStore.row? done.store table id = .ok none) → cycled = done.store)
          ∧ ∀ id row, TableStore.row? done.store table id = .ok (some row) →
            let merged? := mode.renew? row (done.worker.staged.get? id)
            ((kind store).drops deadline = true ∨ merged? = none →
              TableStore.row? cycled table id = .ok (some row))
            ∧ ∀ merged, (kind store).drops deadline = false → merged? = some merged →
              ∃ changed, TableStore.row? cycled table id = .ok (some changed)
                ∧ (∀ column ∈ entity.columns, column.name ∈ columns →
                  changed.get? column.name
                    = some (keptPlain (Record.encodeValue (merged.value column))))
                ∧ ∀ name, SparedBy entity columns name →
                  changed.get? name = (row.get? name).map keptPlain)
        ∧ (kind store = .memory → ∀ value, keptPlain value = value)
        ∧ (∀ value : ColumnValue, value.type ≠ .double →
          keptPlain (Record.encodeValue value) = Record.encodeValue value)
        ∧ ∀ startMillis endMillis,
          descriptor.deleteHistory startMillis endMillis done.store = (.ok 0, done.store) := by
  intro descriptor done keptPlain
  have spares : done.Spares table columns mode store :=
    (Spares.start entity mode table columns store).run steps
  simp only [row?_eq_ok_none_iff, row?_eq_ok_some_iff, row?_eq_error_iff]
  refine ⟨fun id => ?_, fun other id ne => ?_, ?_, ?_, ?_,
    fun value => (kind store).keptPlain_encodeValue, fun _ _ => rfl⟩
  · obtain ⟨times, bound, spared⟩ := spares.spared.rows id
    refine ⟨fun absent => (absent ▸ spared).eq_none,
      fun error unread => ⟨(unread.1 ▸ spared).eq_unreadable, unread.2⟩, fun row present => ?_⟩
    obtain ⟨changed, there, same⟩ := (present ▸ spared).exists_changed
    refine ⟨changed, there, ⟨times, bound, same⟩, fun name outside fixed => ?_⟩
    rw [same name outside]
    cases held : row.get? name with
    | none => rfl
    | some value => exact congrArg some (Function.iterate_fixed (fixed value held) times)
  · rw [row?_eq_stored?, row?_eq_stored?, spares.spared.others other id ne]
  · intro record absent
    exact Worker.prepare_of_absent spares.gathers.descriptor absent
  · intro between timeout deadline idle ingests
    rw [store_cycle idle ingests]
    refine ⟨fun absent => flush_of_absent spares.gathers.descriptor spares.gathers.keyed absent
      timeout deadline, fun id row present => ?_⟩
    have renewed := renewed_flush spares.gathers timeout deadline present
    rw [spares.ofKind] at renewed
    rw [renewed]
    constructor
    · rintro (late | unmerged)
      · rw [if_pos late]
      · simp [BackendKind.renewRow, unmerged]
    · intro merged inTime renews
      rw [if_neg (by simp [inTime])]
      exact ⟨_, rfl, fun column => BackendKind.get?_renewRow_of_mem renews,
        fun name => BackendKind.get?_renewRow_of_spared renews⟩
  · intro memory value
    simp only [keptPlain, memory]
    rfl

/-- A heartbeat for an instance with a small load, which its text and then the text of the updated
row read back as two further doubles.
-/
theorem in_place_rows_spared_drifting_load
    : let beat : Record Collector.RecordKind.instanceHeartBeat.entity :=
        ⟨[.string "12", .integer 12, .long 200], rfl⟩
      let row : Document := .ofList [("id", .text "12"), ("instance_id", .int 12),
        ("heart_beat_time", .int 50), ("load", .float ⟨0x3e9fff89509596b4⟩)]
      let store := (TableStore.execute (Backend.ofKind .database)
        [⟨.insert, "instance", "12", row⟩] .ahead).2
      let done := (start _ .strict (.inPlace "instance" ["heart_beat_time"]) store).run
        [.ingest beat]
      let cycled := (done.run [.drain, .flush 20000 .ahead]).store
      done.inFlight = none
        ∧ ∃ before changed, TableStore.row? done.store "instance" "12" = .ok (some before)
          ∧ TableStore.row? cycled "instance" "12" = .ok (some changed)
          ∧ changed.get? "heart_beat_time" = some (.int 200)
          ∧ before.get? "load" = some (.float ⟨0x3e9fff89509596b6⟩)
          ∧ changed.get? "load" = some (.float ⟨0x3e9fff89509596b7⟩) := by
  intro beat row store done cycled
  let before := BackendKind.database.kept row
  have present : TableStore.row? done.store "instance" "12" = .ok (some before) := by
    have absent : stored? (Backend.ofKind .database) "instance" "12" = none := by decide +kernel
    have stored : stored? store "instance" "12" = some (BackendKind.database.row row) :=
      (execute_insert_of_absent rfl absent row).2
    have fits : BackendKind.database.Fits row := (by decide : row.IsReadable)
    rw [BackendKind.row_of_fits fits] at stored
    exact row?_eq_ok_some_iff.mpr stored
  have renews : MergeMode.strict.renew? before (done.worker.staged.get? "12") = some beat := by
    decide +kernel
  have once : Value.rereadDouble ⟨0x3e9fff89509596b4⟩ = .float ⟨0x3e9fff89509596b6⟩ := by
    set_option maxRecDepth 4000 in with_unfolding_all rfl
  have twice : Value.rereadDouble ⟨0x3e9fff89509596b6⟩ = .float ⟨0x3e9fff89509596b7⟩ := by
    set_option maxRecDepth 4000 in with_unfolding_all rfl
  have load : before.get? "load" = some (.float ⟨0x3e9fff89509596b6⟩) := by
    rw [BackendKind.get?_kept, KeyMap.get?_ofList (by decide)]
    exact congrArg some once
  obtain ⟨_, _, _, cycle, _⟩ :=
    in_place_rows_spared .strict "instance" ["heart_beat_time"] store [.ingest beat]
  obtain ⟨_, rows⟩ := cycle [] 20000 .ahead rfl (by simp)
  obtain ⟨changed, there, values, others⟩ := (rows "12" before present).2 beat rfl renews
  refine ⟨rfl, before, changed, present, there, ?_, load, ?_⟩
  · exact values ⟨"heart_beat_time", .long, .coverMerge⟩ (by decide) (by decide)
  · rw [others "load" (.inl (by decide)), load]
    exact congrArg some twice

end Persistence

end Storage

end Telemetry
