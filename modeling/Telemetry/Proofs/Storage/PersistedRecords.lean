import Telemetry.Proofs.Records.ColumnwiseMerge
import Telemetry.Proofs.Records.DocumentCodec
import Telemetry.Proofs.Storage.BatchExecution
import Telemetry.Storage.Worker

/-! What workers write and what comes back of it. The operation for a staged record names the table
of the worker and the id of the record, and a row written from a record is read as the record that
its kind of store keeps.
-/

namespace Telemetry

open Storage

variable {entity : Entity}

-----------------------------------------------------------------------------------------
-- Records in stores
-----------------------------------------------------------------------------------------

namespace Record

/-- In the plain form of a value containers hold no containers. -/
theorem nesting_encodeValue (value : ColumnValue) : (encodeValue value).nesting ≤ 1 := by
  cases value with
  | byte bytes =>
      have flat : Value.nestingAll (bytes.map fun byte => .int byte.toNat) = 0 := by
        induction bytes with
        | nil => rfl
        | cons byte rest ih => rw [List.map_cons, Value.nestingAll, ih]; rfl
      simp [encodeValue, Value.nesting, flat]
  | double number =>
      simp only [encodeValue]
      split <;> exact Nat.zero_le 1
  | string _ | long _ | integer _ => simp [encodeValue, Value.nesting]

/-- The document of a record can be read. -/
theorem isReadable_document (record : Record entity) : record.document.IsReadable := by
  refine Document.isReadable_iff.mpr fun name value bound => ?_
  have named : name ∈ entity.columns.map (·.name) := by
    by_contra missing
    rw [record.get?_document_of_notMem missing] at bound
    cases bound
  obtain ⟨column, member, rfl⟩ := List.mem_map.mp named
  rw [record.get?_document member] at bound
  cases bound
  exact Nat.lt_of_le_of_lt (nesting_encodeValue _) (by decide)

end Record

namespace Storage.BackendKind

/-- What a store of a kind gives back of a plain value that it keeps. -/
def keptPlain : BackendKind → Value → Value
  | memory => id
  | database => Value.reread

theorem get?_kept (kind : BackendKind) (document : Document) (name : String)
    : (kind.kept document).get? name = (document.get? name).map kind.keptPlain := by
  cases kind with
  | memory => simp [kept, keptPlain]
  | database => exact KeyMap.get?_mapValues _ _ _

/-- What a store of a kind gives back of a value that it keeps. -/
def keptValue : BackendKind → ColumnValue → ColumnValue
  | memory => fun value => value
  | database => ColumnValue.reread

/-- What a store of a kind gives back of a record that it keeps. -/
def keptRecord : BackendKind → Record entity → Record entity
  | memory => fun record => record
  | database => Record.reread

theorem keptValue_of_ne_double (kind : BackendKind) {value : ColumnValue}
    (h : value.type ≠ .double)
    : kind.keptValue value = value := by
  cases kind with
  | memory => rfl
  | database => exact ColumnValue.reread_of_ne_double h

theorem keptPlain_encodeValue (kind : BackendKind) {value : ColumnValue}
    (h : value.type ≠ .double)
    : kind.keptPlain (Record.encodeValue value) = Record.encodeValue value := by
  cases kind with
  | memory => rfl
  | database => exact Record.reread_encodeValue h

theorem value_keptRecord (kind : BackendKind) (record : Record entity) {column : Column}
    (member : column ∈ entity.columns)
    : (kind.keptRecord record).value column = kind.keptValue (record.value column) := by
  cases kind with
  | memory => rfl
  | database => exact record.value_reread member

theorem id_keptRecord (kind : BackendKind) (record : Record entity)
    : (kind.keptRecord record).id = record.id := by
  obtain ⟨column, member, named, text⟩ := Record.exists_idColumn entity
  have kept := kind.value_keptRecord record member
  rw [Record.value_idColumn _ member named text, record.value_idColumn member named text,
    kind.keptValue_of_ne_double (by simp [ColumnValue.type])] at kept
  exact ColumnValue.string.inj kept

/-- A row written from a record with a plain form is read as what is kept of the record. -/
theorem decode?_kept (kind : BackendKind) {record : Record entity} (finite : record.IsFinite)
    : Record.decode? (.ofDocument (kind.kept record.document)) = some (kind.keptRecord record) := by
  cases kind with
  | memory => exact Record.decode?_document finite
  | database => exact Record.decode?_document_reread finite

/-- The row of a record is read as what is kept of its document. -/
theorem row_document (kind : BackendKind) (record : Record entity)
    : kind.row record.document = some (kind.kept record.document) :=
  row_of_fits (fits_of_isReadable record.isReadable_document)

/-- A whole record overwrites everything that was kept of another one. -/
theorem overwrite_kept (kind : BackendKind) (earlier later : Record entity)
    : overwrite (kind.kept earlier.document) later.document = later.document := by
  refine KeyMap.ext_get? fun name => ?_
  rw [overwrite, KeyMap.get?_insertAll_entries]
  by_cases named : name ∈ entity.columns.map (·.name)
  · obtain ⟨column, member, rfl⟩ := List.mem_map.mp named
    rw [later.get?_document member, Option.some_or]
  · have nothing : (kind.kept earlier.document).get? name = none := by
      rw [get?_kept, earlier.get?_document_of_notMem named, Option.map_none]
    rw [later.get?_document_of_notMem named, nothing, Option.or_none]

end Storage.BackendKind

-----------------------------------------------------------------------------------------
-- Operations of workers
-----------------------------------------------------------------------------------------

namespace Storage

variable {S : Type} [TableStore S]

open HasPlainForm

/-- Whether a table takes whole records, new ones included. -/
structure Descriptor.TakesRecords (descriptor : Descriptor) : Prop where
  insertable : descriptor.insertable = true
  whole : descriptor.updateColumns = none

theorem Descriptor.encode_eq (record : Record entity)
    : encode record = .ok record.document := by
  change Except.ok (KeyMap.ofList record.document.entries) = _
  rw [KeyMap.ofList_entries]

namespace Worker

variable {worker : Worker (Record entity)} {store : S} {record : Record entity}

/-- The record whose document the operation for a staged record carries: the staged record merged
into the stored one, if there is one.
-/
def handed {R : Type} [StreamData R] (worker : Worker R) (store : S) (record : R)
    : Except Error R := do
  match ← worker.descriptor.fetch R store (StreamData.id record) with
  | some persisted => worker.mode.merge persisted record
  | none => pure record

/-- Whether all doubles that draining a worker hands to the codec are finite. -/
def HandsFinite (worker : Worker (Record entity)) (store : S) : Prop :=
  ∀ id record, worker.staged.get? id = some record →
    ∀ handed, worker.handed store record = .ok handed → handed.IsFinite

/-- Whether all records are staged under their own identities. -/
def IsKeyed (worker : Worker (Record entity)) : Prop :=
  ∀ id record, worker.staged.get? id = some record → record.id = id

/-- An operation names the table of its worker and the id of its record. -/
theorem prepare_names {operation : Operation} (h : worker.prepare store record = .ok operation)
    : operation.table = worker.descriptor.table ∧ operation.id = record.id := by
  obtain ⟨persisted?, _, h⟩ := bind_eq_ok.mp h
  cases persisted? with
  | some persisted =>
      obtain ⟨merged, merges, h⟩ := bind_eq_ok.mp h
      obtain ⟨document, _, made⟩ := bind_eq_ok.mp h
      have same := (Record.merge_eq_ok_iff.mp merges).1
      cases made
      exact ⟨rfl, (Record.id_of_merge merges).trans same⟩
  | none =>
      change worker.descriptor.prepareInsert record = .ok operation at h
      unfold Descriptor.prepareInsert at h
      split at h
      · cases h
      · obtain ⟨document, _, made⟩ := bind_eq_ok.mp h
        cases made
        exact ⟨rfl, rfl⟩

/-- The operations of a worker on one row are at most the one for the record staged under its id. -/
theorem filter_operations
    (keyed : worker.IsKeyed) (space : Namespace) (id : String)
    : (worker.operations store).filter
        (·.concerns space (space.qualify worker.descriptor.table) id)
      = ((worker.staged.get? id).bind fun record =>
          (worker.prepare store record).toOption).toList := by
  refine worker.staged.filter_filterMap_entries
    (fun record => (worker.prepare store record).toOption)
    (·.concerns space (space.qualify worker.descriptor.table) id) id ?_
  intro name record staged operation prepared
  obtain ⟨table, identity⟩ := prepare_names (ok_of_toOption prepared)
  simp [Operation.concerns, table, identity, keyed name record staged]

end Worker

section

variable [HasPlainForm S] {store : S}

theorem Descriptor.fetch_absent {descriptor : Descriptor} {id : String}
    (absent : stored? store descriptor.table id = none)
    : descriptor.fetch (Record entity) store id = .ok none := by
  simp only [fetch, row?_eq_stored?, absent]
  rfl

/-- A row that can be read is fetched as a record. -/
theorem Descriptor.fetch_present {descriptor : Descriptor} {id : String} {row : Document}
    {record : Record entity} (present : stored? store descriptor.table id = some (some row))
    (decoded : Record.decode? (.ofDocument row) = some record)
    : descriptor.fetch (Record entity) store id = .ok (some record) := by
  have decoded : StreamData.decode? (.ofDocument row) = some record := decoded
  simp only [fetch, row?_eq_stored?, present, PlainStore.read, bind, Except.bind, decoded]
  rfl

namespace Worker

variable {worker : Worker (Record entity)} {record : Record entity}

/-- A record without a row is inserted as it is. -/
theorem prepare_insert (takes : worker.descriptor.TakesRecords)
    (absent : stored? store worker.descriptor.table record.id = none)
    : worker.handed store record = .ok record
      ∧ worker.prepare store record
        = .ok ⟨.insert, worker.descriptor.table, record.id, record.document⟩ := by
  have fetched : worker.descriptor.fetch (Record entity) store (StreamData.id record)
      = .ok none :=
    Descriptor.fetch_absent absent
  constructor
  · simp only [handed, fetched]
    rfl
  · simp only [prepare, fetched]
    change worker.descriptor.prepareInsert record = _
    simp only [Descriptor.prepareInsert, takes.insertable, Descriptor.encode_eq]
    rfl

/-- A record with a row becomes an update of the columns that the table updates. -/
theorem prepare_present {row : Document} {persisted merged : Record entity}
    (present : stored? store worker.descriptor.table record.id = some (some row))
    (decoded : Record.decode? (.ofDocument row) = some persisted)
    (merges : worker.mode.merge persisted record = .ok merged)
    : worker.prepare store record
      = .ok ⟨.update, worker.descriptor.table, merged.id,
          worker.descriptor.restrict merged.document⟩ := by
  have fetched : worker.descriptor.fetch (Record entity) store (StreamData.id record)
      = .ok (some persisted) :=
    Descriptor.fetch_present present decoded
  simp only [prepare, fetched]
  change (worker.mode.merge persisted record >>= worker.descriptor.prepareUpdate) = _
  rw [merges]
  change worker.descriptor.prepareUpdate merged = _
  simp only [Descriptor.prepareUpdate, Descriptor.encode_eq]
  rfl

/-- A record with a row is merged into what is read from the row. -/
theorem prepare_update (takes : worker.descriptor.TakesRecords) {row : Document}
    {persisted merged : Record entity}
    (present : stored? store worker.descriptor.table record.id = some (some row))
    (decoded : Record.decode? (.ofDocument row) = some persisted)
    (merges : worker.mode.merge persisted record = .ok merged)
    : worker.handed store record = .ok merged
      ∧ worker.prepare store record
        = .ok ⟨.update, worker.descriptor.table, merged.id, merged.document⟩ := by
  have fetched : worker.descriptor.fetch (Record entity) store (StreamData.id record)
      = .ok (some persisted) :=
    Descriptor.fetch_present present decoded
  constructor
  · simp only [handed, fetched]
    exact merges
  · rw [prepare_present present decoded merges]
    simp only [Descriptor.restrict, takes.whole]

end Worker

end

end Storage

end Telemetry
