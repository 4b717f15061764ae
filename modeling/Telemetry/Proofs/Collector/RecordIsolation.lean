import Telemetry.Proofs.Collector.InterleavedDeletions
import Telemetry.Proofs.Storage.MatchingRows
import Telemetry.Proofs.Storage.StagedRecords

/-! Records of one identity do not disturb those of another. A run that leaves out all ingests into
one place of an archive stages, writes and answers everywhere else as the whole run does, whatever
these ingests bring and however they fail.
-/

namespace Telemetry.Collector

open Storage HasPlainForm

-----------------------------------------------------------------------------------------
-- Archives that differ in one place
-----------------------------------------------------------------------------------------

/-- Tables of one kind whose workers look alike. -/
inductive TablesMatch (visible : String → Prop)
    : Table RecordKind.Carrier → Table RecordKind.Carrier → Prop where
  | intro {kind : RecordKind} {first second : Worker kind.Carrier}
      (workers : first.Matches visible second)
      : TablesMatch visible ⟨kind, first⟩ ⟨kind, second⟩

namespace TablesMatch

variable {visible : String → Prop} {first second third : Table RecordKind.Carrier}

theorem refl (table : Table RecordKind.Carrier) : TablesMatch visible table table :=
  ⟨.refl table.worker⟩

theorem trans (h : TablesMatch visible first second) (more : TablesMatch visible second third)
    : TablesMatch visible first third := by
  cases h with
  | intro workers =>
      cases more with
      | intro others => exact ⟨workers.trans others⟩

theorem cleared (h : TablesMatch visible first second)
    : TablesMatch visible first.cleared second.cleared := by
  cases h with
  | intro workers => exact ⟨workers.cleared⟩

theorem descriptor_eq (h : TablesMatch visible first second)
    : first.descriptor = second.descriptor := by
  cases h with
  | intro workers => exact workers.descriptor

end TablesMatch

namespace Archive

variable {S : Type}

/-- The record that is staged under an id in the table of a name. -/
def staged? (archive : Archive S) (table id : String) : Option (Sigma RecordKind.Carrier) :=
  (archive.tables.get? table).bind fun table =>
    (table.worker.staged.get? id).map fun record => ⟨table.kind, record⟩

def answer (archive : Archive S) (kind : RecordKind) (table : String) (record : kind.Carrier)
    : Except Error (List Measurement) :=
  (archive.ingest kind table record).map (·.1)

theorem ingest_of_no_worker {archive : Archive S} {kind : RecordKind} {name : String}
    (missing : archive.worker? kind name = none) (record : kind.Carrier)
    : archive.ingest kind name record = .error (Archive.missing name) := by
  simp only [ingest, missing]
  rfl

/-- An ingest stages the record with the worker of its table. -/
theorem ingest_of_worker {archive : Archive S} {kind : RecordKind} {name : String}
    {worker : Worker kind.Carrier} (found : archive.worker? kind name = some worker)
    (record : kind.Carrier)
    : archive.ingest kind name record = (worker.ingest record).map fun answer =>
        (answer.1.measurements name,
          { archive with tables := archive.tables.insert name ⟨kind, answer.2⟩ }) := by
  simp only [ingest, found]
  cases worker.ingest record <;> rfl

variable [TableStore S]

/-- An ingest fails and changes nothing, or the worker of its table takes the record. -/
theorem step_ingest_cases (archive : Archive S) (kind : RecordKind) (name : String)
    (record : kind.Carrier)
    : (archive.answer kind name record).isOk = false
        ∧ archive.step (.ingest kind name record) = archive
      ∨ ∃ worker what next, archive.worker? kind name = some worker
        ∧ worker.ingest record = .ok (what, next)
        ∧ (archive.answer kind name record).isOk = true
        ∧ archive.step (.ingest kind name record)
          = { archive with tables := archive.tables.insert name ⟨kind, next⟩ } := by
  unfold answer
  simp only [step]
  cases found : archive.worker? kind name with
  | none =>
      rw [ingest_of_no_worker found]
      exact .inl ⟨rfl, rfl⟩
  | some worker =>
      rw [ingest_of_worker found]
      cases ingested : worker.ingest record with
      | error error => exact .inl ⟨rfl, rfl⟩
      | ok answer => exact .inr ⟨worker, answer.1, answer.2, rfl, ingested, rfl, rfl⟩

/-- The operation that a cycle drains for a place. -/
def operation? (archive : Archive S) (name id : String) : Option Operation :=
  (archive.tables.get? name).bind fun table => (table.worker.staged.get? id).bind fun record =>
    (table.worker.prepare archive.store record).toOption

/-- The batch of a cycle holds at most one operation about a row. -/
theorem IsSound.filter_batch {archive : Archive S} (h : archive.IsSound) (space : Namespace)
    (name id : String)
    : archive.batch.filter (·.concerns space (space.qualify name) id)
      = (archive.operation? name id).toList := by
  cases drained : archive.operation? name id with
  | some operation =>
      obtain ⟨table, bound, more⟩ := Option.bind_eq_some_iff.mp drained
      obtain ⟨record, staged, prepared⟩ := Option.bind_eq_some_iff.mp more
      have prepared := ok_of_toOption prepared
      obtain ⟨own, identity⟩ := Worker.prepare_names prepared
      have about : operation.key = (name, id) := Prod.ext
        (own.trans (h name table bound).named)
        (identity.trans ((h name table bound).keyed id record staged))
      have member := (h.mem_batch_iff bound about).mpr ⟨record, staged, prepared⟩
      cases about
      exact PlainStore.filter_concerns_of_mem space h.nodup_batch member
  | none =>
      refine List.filter_eq_nil_iff.mpr fun operation member concerns => ?_
      obtain ⟨table, record, bound, staged, prepared⟩ := h.of_mem_batch member
      cases Operation.concerns_iff.mp concerns
      simp [operation?, bound, staged, prepared, Except.toOption] at drained

/-- An elected sweep deletes the history of all tables, and another one does nothing. -/
theorem sweep_store (archive : Archive S) (view : Cluster.View)
    (registration : Cluster.Registration) (ttlDays : Nat) (now : Instant)
    : (archive.sweep view registration ttlDays now).archive.store
      = if view.isElected registration then
          archive.deleteHistory tableNames 0 (retentionEnd now ttlDays) archive.store
        else archive.store := by
  simp only [sweep, Storage.sweep]
  split <;> rfl

variable [HasPlainForm S]

theorem kind_cycle (archive : Archive S) (timeout : Duration) (deadline : Deadline)
    : kind (archive.cycle timeout deadline).archive.store = kind archive.store
      ∧ (plain (archive.cycle timeout deadline).archive.store).space
        = (plain archive.store).space :=
  Pipeline.kind_flush ⟨timeout, archive.batch⟩ deadline archive.store

/-- A cycle carries out the operation that it drains for a place, unless its batch is dropped. -/
theorem IsSound.stored?_cycle {archive : Archive S} (h : archive.IsSound) (timeout : Duration)
    (deadline : Deadline) (name id : String)
    : stored? (archive.cycle timeout deadline).archive.store name id
      = if (kind archive.store).drops deadline then stored? archive.store name id
        else
          (archive.operation? name id).toList.foldl
            (fun row operation => operation.after (kind archive.store).row row)
            (stored? archive.store name id) := by
  let pipeline : Pipeline := ⟨timeout, archive.batch⟩
  have flushed := pipeline.stored?_flush deadline archive.store name id
  rw [h.filter_batch, (h.flush_batch timeout deadline).1] at flushed
  refine Eq.trans flushed ?_
  by_cases pending : archive.batch = []
  · have nothing : archive.operation? name id = none := by
      have drained := h.filter_batch (plain archive.store).space name id
      rw [pending] at drained
      exact Option.toList_eq_nil_iff.mp drained.symm
    simp [nothing]
  · rw [List.isEmpty_eq_false_iff.mpr pending, Bool.false_or]
    cases (kind archive.store).drops deadline <;> rfl

/-- A cycle writes no row that cannot be read, and changes none. -/
theorem IsSound.stored?_cycle_eq_some_none_iff {archive : Archive S} (h : archive.IsSound)
    (timeout : Duration) (deadline : Deadline) (name id : String)
    : stored? (archive.cycle timeout deadline).archive.store name id = some none
      ↔ stored? archive.store name id = some none := by
  rw [h.stored?_cycle]
  cases drained : archive.operation? name id with
  | none => simp
  | some operation =>
      obtain ⟨table, bound, more⟩ := Option.bind_eq_some_iff.mp drained
      obtain ⟨record, staged, prepared⟩ := Option.bind_eq_some_iff.mp more
      have prepared := ok_of_toOption prepared
      have suits := Worker.suits_of_prepare prepared
      obtain ⟨document, written⟩ := Worker.exists_written_of_prepare prepared
      rw [show table.worker.descriptor.table = name from (h name table bound).named,
        (h name table bound).keyed id record staged] at suits written
      have readable : stored? archive.store name id ≠ some none :=
        fun unreadable => by rw [unreadable] at suits; exact suits
      cases (kind archive.store).drops deadline <;> simp [Operation.after, written, readable]

/-- A deletion takes no row that cannot be read. -/
theorem stored?_deleteHistory_eq_some_none_iff (archive : Archive S) (names : List String)
    (startMillis endMillis : Int) (store : S) (name id : String)
    : stored? (archive.deleteHistory names startMillis endMillis store) name id = some none
      ↔ stored? store name id = some none := by
  unfold stored? tableRows
  rw [plain_deleteHistory]
  dsimp only
  rw [Rows.get?_pruneAll, Option.filter_eq_some_iff]
  refine and_iff_left (List.all_eq_true.mpr fun descriptor _ => ?_)
  simp [Rows.loses]

-----------------------------------------------------------------------------------------
-- Archives that look alike
-----------------------------------------------------------------------------------------

/-- Whether two archives differ in one place at most, in its row and in the record staged there. A
row there can be read in both or in neither.
-/
structure Matches (hidden : String × String) (first second : Archive S) : Prop where
  kind : kind first.store = kind second.store
  space : (plain first.store).space = (plain second.store).space
  rows : RowsMatch hidden first.store second.store
  tables (name : String)
    : Option.Rel (TablesMatch fun id => (name, id) ≠ hidden) (first.tables.get? name)
        (second.tables.get? name)

namespace Matches

variable {hidden : String × String} {first second third : Archive S}

/-- Archives that look alike have the same row in a visible place. -/
theorem stored?_eq (h : first.Matches hidden second) {table id : String}
    (seen : (table, id) ≠ hidden)
    : stored? first.store table id = stored? second.store table id :=
  ((rowsMatch_iff h.space).mp h.rows).1 table id seen

theorem unreadable_iff (h : first.Matches hidden second)
    : stored? first.store hidden.1 hidden.2 = some none
      ↔ stored? second.store hidden.1 hidden.2 = some none :=
  ((rowsMatch_iff h.space).mp h.rows).2

theorem refl (archive : Archive S) : archive.Matches hidden archive where
  kind := rfl
  space := rfl
  rows := .refl _
  tables name := by
    cases archive.tables.get? name with
    | none => exact .none
    | some table => exact .some (.refl table)

theorem trans (h : first.Matches hidden second) (more : second.Matches hidden third)
    : first.Matches hidden third where
  kind := h.kind.trans more.kind
  space := h.space.trans more.space
  rows := by
    have later := more.rows
    unfold RowsMatch at later
    rw [← h.space] at later
    exact h.rows.trans later
  tables name := by
    have earlier := h.tables name
    have later := more.tables name
    generalize first.tables.get? name = one, second.tables.get? name = two,
      third.tables.get? name = three at earlier later
    cases earlier with
    | none =>
        cases later with
        | none => exact .none
    | some tables =>
        cases later with
        | some others => exact .some (tables.trans others)

/-- Archives that look alike have the same operation for a visible place. -/
theorem operation?_eq (h : first.Matches hidden second) (sound : first.IsSound) {name id : String}
    (seen : (name, id) ≠ hidden)
    : first.operation? name id = second.operation? name id := by
  have tables := h.tables name
  unfold operation?
  cases bound : first.tables.get? name with
  | none =>
      rw [bound] at tables
      generalize second.tables.get? name = other at tables ⊢
      cases tables
      rfl
  | some table =>
      have own := sound name table bound
      rw [bound] at tables
      generalize second.tables.get? name = other at tables ⊢
      cases tables with
      | some tables =>
          cases tables with
          | @intro kind worker twin workers =>
              simp only [Option.bind_some]
              rw [← workers.staged id seen]
              refine Option.bind_congr fun record staged => ?_
              have place : (worker.descriptor.table, record.id) = (name, id) :=
                Prod.ext own.named (own.keyed id record staged)
              cases place
              rw [workers.prepare (h.stored?_eq seen)]

/-- A cycle keeps archives alike. -/
theorem cycle (h : first.Matches hidden second) (sound : first.IsSound) (other : second.IsSound)
    (timeout : Duration) (deadline : Deadline)
    : (first.cycle timeout deadline).archive.Matches hidden
        (second.cycle timeout deadline).archive where
  kind := by
    rw [(first.kind_cycle timeout deadline).1, (second.kind_cycle timeout deadline).1, h.kind]
  space := by
    rw [(first.kind_cycle timeout deadline).2, (second.kind_cycle timeout deadline).2, h.space]
  rows := by
    refine (rowsMatch_iff ?_).mpr ⟨fun table id seen => ?_, ?_⟩
    · rw [(first.kind_cycle timeout deadline).2, (second.kind_cycle timeout deadline).2, h.space]
    · rw [sound.stored?_cycle, other.stored?_cycle, h.operation?_eq sound seen, h.stored?_eq seen,
        h.kind]
    · rw [sound.stored?_cycle_eq_some_none_iff, other.stored?_cycle_eq_some_none_iff]
      exact h.unreadable_iff
  tables name := by
    have one := TableSet.get?_drain first.store tableNames first.tables name
    have two := TableSet.get?_drain second.store tableNames second.tables name
    have before := h.tables name
    change Option.Rel _ ((TableSet.drain first.store tableNames first.tables).2.get? name)
      ((TableSet.drain second.store tableNames second.tables).2.get? name)
    rw [one, two]
    split
    · generalize first.tables.get? name = table, second.tables.get? name = twin at before ⊢
      cases before with
      | none => exact .none
      | some tables => exact .some tables.cleared
    · exact before

/-- Tables of one name have the same rules in archives that look alike. -/
theorem descriptor?_eq (h : first.Matches hidden second) (name : String)
    : (first.tables.get? name).map (·.descriptor)
      = (second.tables.get? name).map (·.descriptor) := by
  have tables := h.tables name
  generalize first.tables.get? name = table, second.tables.get? name = twin at tables ⊢
  cases tables with
  | none => rfl
  | some tables => exact congrArg some tables.descriptor_eq

/-- Archives that look alike sweep the same tables. -/
theorem descriptors_eq (h : first.Matches hidden second) (names : List String)
    : (names.filterMap fun name => (first.tables.get? name).map (·.descriptor))
      = names.filterMap fun name => (second.tables.get? name).map (·.descriptor) :=
  List.filterMap_congr fun name _ => h.descriptor?_eq name

/-- A deletion keeps archives alike. -/
theorem deleteHistory (h : first.Matches hidden second) (names : List String)
    (startMillis endMillis : Int)
    : Matches hidden
        { first with store := first.deleteHistory names startMillis endMillis first.store }
        { second with store := second.deleteHistory names startMillis endMillis second.store } where
  kind := by rw [kind_deleteHistory, kind_deleteHistory, h.kind]
  space := by rw [plain_deleteHistory, plain_deleteHistory]; exact h.space
  rows := by
    refine (rowsMatch_iff ?_).mpr ⟨fun table id seen => ?_, ?_⟩
    · rw [plain_deleteHistory, plain_deleteHistory]
      exact h.space
    · -- The rows of a table can be read in both archives or in neither, so both lose the same.
      have same := h.rows.isReadable_eq
      have rows := h.rows.visible table id seen
      unfold stored? tableRows
      rw [plain_deleteHistory, plain_deleteHistory, h.descriptors_eq]
      dsimp only
      rw [Rows.get?_pruneAll, Rows.get?_pruneAll, ← h.space, rows]
      simp only [Rows.loses, same]
    · rw [stored?_deleteHistory_eq_some_none_iff, stored?_deleteHistory_eq_some_none_iff]
      exact h.unreadable_iff
  tables := h.tables

/-- A sweep keeps archives alike. -/
theorem sweep (h : first.Matches hidden second) (view : Cluster.View)
    (registration : Cluster.Registration) (ttlDays : Nat) (now : Instant)
    : (first.sweep view registration ttlDays now).archive.Matches hidden
        (second.sweep view registration ttlDays now).archive := by
  have swept (archive : Archive S)
      : (archive.sweep view registration ttlDays now).archive
        = { archive with store := (archive.sweep view registration ttlDays now).archive.store } :=
    rfl
  rw [swept first, swept second, sweep_store, sweep_store]
  split
  · exact h.deleteHistory tableNames 0 _
  · exact h

/-- A batch from elsewhere keeps archives alike, if it brings nothing unreadable to the hidden
place.
-/
theorem execute (h : first.Matches hidden second) {operations : List Operation}
    (fits : ∀ operation ∈ operations, operation.key = hidden →
      (Storage.HasPlainForm.kind first.store).Fits operation.document)
    : (first.execute operations).2.Matches hidden (second.execute operations).2 where
  kind := (kind_execute first.store operations .unlimited).1.trans
    (h.kind.trans (kind_execute second.store operations .unlimited).1.symm)
  space := (kind_execute first.store operations .unlimited).2.trans
    (h.space.trans (kind_execute second.store operations .unlimited).2.symm)
  rows := h.rows.execute h.kind h.space fits .unlimited
  tables := h.tables

-----------------------------------------------------------------------------------------
-- Ingests
-----------------------------------------------------------------------------------------

/-- Archives that look alike have workers that look alike, or none. -/
theorem worker? (h : first.Matches hidden second) (kind : RecordKind) (name : String)
    : (first.worker? kind name = none ∧ second.worker? kind name = none)
      ∨ ∃ worker twin, first.worker? kind name = some worker
          ∧ second.worker? kind name = some twin
          ∧ worker.Matches (fun id => (name, id) ≠ hidden) twin := by
  have tables := h.tables name
  unfold Archive.worker?
  generalize first.tables.get? name = table, second.tables.get? name = twin at tables ⊢
  cases tables with
  | none => exact .inl ⟨rfl, rfl⟩
  | some tables =>
      cases tables with
      | @intro own worker twin workers =>
          simp only [Option.bind_eq_bind, Option.bind_some]
          by_cases same : own = kind
          · subst same
            exact .inr ⟨worker, twin, dif_pos rfl, dif_pos rfl, workers⟩
          · exact .inl ⟨dif_neg same, dif_neg same⟩

/-- Workers that look alike keep archives alike if they take the places of those of a table. -/
theorem insert (h : first.Matches hidden second) {name : String} {table twin : Table _}
    (tables : TablesMatch (fun id => (name, id) ≠ hidden) table twin)
    : Matches hidden { first with tables := first.tables.insert name table }
        { second with tables := second.tables.insert name twin } where
  kind := h.kind
  space := h.space
  rows := h.rows
  tables other := by
    rw [KeyMap.get?_insert, KeyMap.get?_insert]
    split
    next here => cases here; exact .some tables
    next => exact h.tables other

/-- Archives that look alike answer alike to a record for a visible place, and look alike again. -/
theorem ingest (h : first.Matches hidden second) {kind : RecordKind} {name : String}
    {record : kind.Carrier} (seen : (name, record.id) ≠ hidden)
    : first.answer kind name record = second.answer kind name record
      ∧ (first.step (.ingest kind name record)).Matches hidden
          (second.step (.ingest kind name record)) := by
  simp only [answer, step]
  rcases h.worker? kind name with ⟨missing, missingToo⟩ | ⟨worker, twin, found, foundToo, workers⟩
  · rw [ingest_of_no_worker missing, ingest_of_no_worker missingToo]
    exact ⟨rfl, h⟩
  · have seen : (name, StreamData.id record) ≠ hidden := seen
    rw [ingest_of_worker found, ingest_of_worker foundToo]
    rcases workers.ingest seen with
      ⟨error, failed, failedToo⟩ | ⟨what, next, other, taken, takenToo, same⟩
    · rw [failed, failedToo]
      exact ⟨rfl, h⟩
    · rw [taken, takenToo]
      exact ⟨rfl, h.insert ⟨same⟩⟩

/-- What is ingested into the hidden place does not show. -/
theorem of_ingest_hidden {kind : RecordKind} {name : String} {record : kind.Carrier}
    (hides : (name, record.id) = hidden) (archive : Archive S)
    : (archive.step (.ingest kind name record)).Matches hidden archive := by
  rcases archive.step_ingest_cases kind name record with
    ⟨_, same⟩ | ⟨worker, what, next, found, ingested, _, reached⟩
  · rw [same]
    exact .refl archive
  · obtain ⟨total, rfl⟩ := Worker.ingest_eq_ok ingested
    have unchanged : archive.tables.insert name ⟨kind, worker⟩ = archive.tables :=
      KeyMap.insert_of_get? (worker?_eq_some found)
    have tables : TablesMatch (fun id => (name, id) ≠ hidden)
        ⟨kind, worker.hold record.id total⟩ ⟨kind, worker⟩ :=
      ⟨.of_hold_hidden (not_not_intro hides) worker total⟩
    have covered := (refl archive).insert tables
    rw [unchanged] at covered
    rw [reached]
    exact covered

end Matches

end Archive

-----------------------------------------------------------------------------------------
-- Runs
-----------------------------------------------------------------------------------------

namespace ArchiveStep

/-- Whether a step brings a record to a place. -/
def goesTo (step : ArchiveStep) (place : String × String) : Bool :=
  match step with
  | .ingest _ table record => decide ((table, record.id) = place)
  | _ => false

/-- Whether what a step brings from elsewhere to a place can be read by a store of a kind. -/
def Fits (kind : BackendKind) (place : String × String) : ArchiveStep → Prop
  | .execute operations =>
      ∀ operation ∈ operations, operation.key = place → kind.Fits operation.document
  | _ => True

end ArchiveStep

namespace Archive

variable {S : Type} [TableStore S] [HasPlainForm S] {hidden : String × String}
variable {first second : Archive S}

theorem kind_step (archive : Archive S) (step : ArchiveStep)
    : kind (archive.step step).store = kind archive.store := by
  cases step with
  | ingest kind name record =>
      rcases archive.step_ingest_cases kind name record with
        ⟨_, same⟩ | ⟨_, _, _, _, _, _, reached⟩
      · rw [same]
      · rw [reached]
  | cycle timeout deadline => exact (archive.kind_cycle timeout deadline).1
  | sweep view registration ttlDays now =>
      refine (congrArg kind (archive.sweep_store view registration ttlDays now)).trans ?_
      split
      · exact kind_deleteHistory archive tableNames 0 _ archive.store
      · rfl
  | execute operations => exact (kind_execute archive.store operations .unlimited).1

/-- Every step that does not bring a record to the hidden place keeps archives alike, if it brings
nothing unreadable there either.
-/
theorem Matches.step (h : first.Matches hidden second) (sound : first.IsSound)
    (other : second.IsSound) {step : ArchiveStep} (elsewhere : step.goesTo hidden = false)
    (fits : step.Fits (Storage.HasPlainForm.kind first.store) hidden)
    : (first.step step).Matches hidden (second.step step) := by
  cases step with
  | ingest kind name record => exact (h.ingest (of_decide_eq_false elsewhere)).2
  | cycle timeout deadline => exact h.cycle sound other timeout deadline
  | sweep view registration ttlDays now => exact h.sweep view registration ttlDays now
  | execute operations => exact h.execute fits

/-- A run and the same run without the ingests into a place keep archives alike, by induction over
the steps.
-/
theorem Matches.run (h : first.Matches hidden second) (sound : first.IsSound)
    (other : second.IsSound) {steps : List ArchiveStep}
    (fits : ∀ step ∈ steps, step.Fits (Storage.HasPlainForm.kind first.store) hidden)
    : (first.run steps).Matches hidden
        (second.run (steps.filter fun step => !step.goesTo hidden)) := by
  induction steps generalizing first second with
  | nil => exact h
  | cons step rest ih =>
      have later : ∀ other ∈ rest,
          other.Fits (Storage.HasPlainForm.kind (first.step step).store) hidden := by
        rw [first.kind_step]
        exact fun other member => fits other (List.mem_cons_of_mem _ member)
      cases goes : step.goesTo hidden with
      | false =>
          rw [List.filter_cons_of_pos (by simp [goes])]
          exact ih (h.step sound other goes (fits step List.mem_cons_self)) (sound.step step)
            (other.step step) later
      | true =>
          rw [List.filter_cons_of_neg (by simp [goes])]
          have unseen : (first.step step).Matches hidden first := by
            cases step with
            | ingest kind name record => exact of_ingest_hidden (of_decide_eq_true goes) first
            | cycle | sweep | execute => cases goes
          exact ih (unseen.trans h) (sound.step step) other later

theorem Matches.staged?_eq (h : first.Matches hidden second) {table id : String}
    (seen : (table, id) ≠ hidden)
    : first.staged? table id = second.staged? table id := by
  have tables := h.tables table
  unfold staged?
  generalize first.tables.get? table = one, second.tables.get? table = two at tables ⊢
  cases tables with
  | none => rfl
  | some tables =>
      cases tables with
      | intro workers =>
          simp only [Option.bind_some]
          rw [workers.staged id seen]

/-- Records of one identity do not disturb those of another. A run that leaves out every ingest into
one place, whatever the record and however it fares, ends with the same row and the same staged
record at every other place, and answers alike to every record for another place. Only batches from
elsewhere must not bring to that place what cannot be read.
-/
theorem other_places_unaffected (store : Backend) (mode : MergeMode) (steps : List ArchiveStep)
    (place : String × String) (fits : ∀ step ∈ steps, step.Fits (kind store) place)
    : let whole := (onStore store mode).run steps
      let without := (onStore store mode).run (steps.filter fun step => !step.goesTo place)
      (∀ table id, (table, id) ≠ place →
        whole.row? table id = without.row? table id
          ∧ whole.staged? table id = without.staged? table id)
      ∧ ∀ (kind : RecordKind) (table : String) (record : kind.Carrier),
          (table, record.id) ≠ place →
          whole.answer kind table record = without.answer kind table record := by
  intro whole without
  have sound := isSound_onStore store mode
  have alike : whole.Matches place without := (Matches.refl _).run sound sound fits
  refine ⟨fun table id seen => ⟨?_, alike.staged?_eq seen⟩, fun kind table record seen =>
    (alike.ingest seen).1⟩
  rw [row?, row?, row?_eq_stored?, row?_eq_stored?, alike.stored?_eq seen]

/-- A row whose usage is infinite cannot be read, and later records for it are lost; another row of
the same batches is what it is without them.
-/
theorem other_places_unaffected_by_unreadable_row
    : let cpu (id : String) (usage : UInt64) : RecordKind.cpuMetric.Carrier :=
        ⟨[.string id, .string "m", .long 20240106, .integer 1, .double ⟨usage⟩, .long 1], rfl⟩
      let steps : List ArchiveStep :=
        [.ingest .cpuMetric "day_cpu_metric" (cpu "a" 0x7ff0000000000000),
          .ingest .cpuMetric "day_cpu_metric" (cpu "b" 0x3ff0000000000000), .cycle 20000 .ahead,
          .ingest .cpuMetric "day_cpu_metric" (cpu "a" 0x3ff0000000000000),
          .ingest .cpuMetric "day_cpu_metric" (cpu "b" 0x3ff0000000000000), .cycle 20000 .ahead]
      let whole := (onStore (Backend.ofKind .database) .strict).run steps
      let without := (onStore (Backend.ofKind .database) .strict).run
        (steps.filter fun step => !step.goesTo ("day_cpu_metric", "a"))
      (whole.fetch .cpuMetric "day_cpu_metric" "a").isOk = false
        ∧ ("day_cpu_metric", "b") ≠ ("day_cpu_metric", "a")
        ∧ whole.row? "day_cpu_metric" "b" = without.row? "day_cpu_metric" "b" := by
  intro cpu steps whole without
  have differ : ("day_cpu_metric", "b") ≠ ("day_cpu_metric", "a") := by decide
  refine ⟨by decide +kernel, differ, ?_⟩
  exact ((other_places_unaffected (Backend.ofKind .database) .strict steps
    ("day_cpu_metric", "a") (by simp [steps, ArchiveStep.Fits])).1 "day_cpu_metric" "b" differ).1

end Archive

end Telemetry.Collector
