import Telemetry.Collector.RecordKind
import Telemetry.Proofs.Storage.BackendEquivalence
import Telemetry.Proofs.Storage.BatchOutcomes
import Telemetry.Proofs.Storage.PersistedRecords

/-! Records that are written and read back. A record is read from every document that holds its
columns, whatever stands beside them, so an insert and an update with all columns leave a row that
is read as the record, as long as the store gives the row back as it was written.
-/

namespace Telemetry

open Storage HasPlainForm BackendKind

-----------------------------------------------------------------------------------------
-- Documents
-----------------------------------------------------------------------------------------

namespace Record

variable {entity : Entity} {record : Record entity}

/-- The document of a record has the columns of the entity and no others. -/
theorem contains_document (record : Record entity) (name : String)
    : record.document.contains name = true ↔ name ∈ entity.names := by
  unfold KeyMap.contains
  by_cases named : name ∈ entity.names
  · obtain ⟨column, member, rfl⟩ := List.mem_map.mp named
    simp [record.get?_document member, named]
  · simp [record.get?_document_of_notMem named, named]

/-- A record is read from its document with further columns beside its own. -/
theorem decode?_insertAll (finite : record.IsFinite) {extra : Document}
    (unknown : ∀ name ∈ entity.names, extra.contains name = false)
    : decode? (.ofDocument (record.document.insertAll extra.entries)) = some record := by
  refine decode?_of_get? finite fun column member => ?_
  have absent : extra.get? column.name = none :=
    Option.not_isSome_iff_eq_none.mp
      (Bool.eq_false_iff.mp (unknown column.name (List.mem_map.mpr ⟨column, member, rfl⟩)))
  rw [KeyMap.get?_insertAll_entries, absent, Option.none_or, record.get?_document member]

/-- A record is read from every row that it overwrites. -/
theorem decode?_overwrite (finite : record.IsFinite) (row : Document)
    : decode? (.ofDocument (overwrite row record.document)) = some record := by
  refine decode?_of_get? finite fun column member => ?_
  rw [overwrite, KeyMap.get?_insertAll_entries, record.get?_document member, Option.some_or]

/-- A record that overwrites a row leaves the columns that are not its own. -/
theorem get?_overwrite_of_notMem (record : Record entity) (row : Document) {name : String}
    (h : name ∉ entity.names)
    : (overwrite row record.document).get? name = row.get? name := by
  rw [overwrite, KeyMap.get?_insertAll_entries, record.get?_document_of_notMem h, Option.none_or]

/-- The document of a record reads back if its doubles do. -/
theorem readsBack_document
    (doubles : ∀ column ∈ entity.columns, column.type = .double →
      (encodeValue (record.value column)).reread = encodeValue (record.value column))
    : ReadsBack record.document := by
  refine Document.reread?_eq_some_iff.mpr ⟨record.isReadable_document, ?_⟩
  refine KeyMap.ext_get? fun name => ?_
  rw [Document.get?_reread]
  by_cases named : name ∈ entity.names
  · obtain ⟨column, member, rfl⟩ := List.mem_map.mp named
    rw [record.get?_document member, Option.map_some]
    by_cases double : column.type = .double
    · rw [doubles column member double]
    · rw [reread_encodeValue fun same => double ((record.type_value member).symm.trans same)]
  · rw [record.get?_document_of_notMem named, Option.map_none]

end Record

-----------------------------------------------------------------------------------------
-- Rows
-----------------------------------------------------------------------------------------

namespace Storage

/-- Records of finite doubles make the round trip. The document of a record has exactly the columns
of the entity and is read as the record, also with unknown columns added. A row that is inserted
from the record, or updated with all of its columns, is fetched as the record if the store gives the
written document back as it is, as a store in memory always does and a transactional one does if the
text of the document reads back; the update keeps all other columns of the row.
-/
theorem records_round_trip {entity : Entity} {record : Record entity} (finite : record.IsFinite)
    : (∃ document : Document, Descriptor.encode record = .ok document
        ∧ (∀ name, document.contains name = true ↔ name ∈ entity.names)
        ∧ Record.decode? (.ofDocument document) = some record
        ∧ ∀ extra : Document, (∀ name ∈ entity.names, extra.contains name = false) →
            Record.decode? (.ofDocument (document.insertAll extra.entries)) = some record)
      ∧ ∀ (descriptor : Descriptor) (store : Backend) (deadline : Deadline),
        (kind store).drops deadline = false →
        (descriptor.insertable = true →
          TableStore.row? store descriptor.table record.id = .ok none →
          (kind store).kept record.document = record.document →
          ∃ operation, descriptor.prepareInsert record = .ok operation
            ∧ let inserted := TableStore.execute store [operation] deadline
              inserted.1 = .ok ⟨1, []⟩
              ∧ descriptor.fetch (Record entity) inserted.2 record.id = .ok (some record))
        ∧ ∀ row, descriptor.updateColumns = none →
          TableStore.row? store descriptor.table record.id = .ok (some row) →
          (kind store).kept (overwrite row record.document) = overwrite row record.document →
          ∃ operation, descriptor.prepareUpdate record = .ok operation
            ∧ let updated := TableStore.execute store [operation] deadline
              updated.1 = .ok ⟨1, []⟩
              ∧ descriptor.fetch (Record entity) updated.2 record.id = .ok (some record)
              ∧ ∃ changed, TableStore.row? updated.2 descriptor.table record.id = .ok (some changed)
                ∧ ∀ name ∉ entity.names, changed.get? name = row.get? name := by
  refine ⟨⟨record.document, Descriptor.encode_eq record, record.contains_document,
    Record.decode?_document finite, fun extra => Record.decode?_insertAll finite⟩, ?_⟩
  intro descriptor store deadline inTime
  constructor
  · intro insertable absent kept
    have absent := row?_eq_ok_none_iff.mp absent
    obtain ⟨answer, stored⟩ := execute_insert_of_absent inTime absent record.document
    rw [(kind store).row_document, kept] at stored
    refine ⟨⟨.insert, descriptor.table, record.id, record.document⟩, ?_, answer,
      Descriptor.fetch_present stored (Record.decode?_document finite)⟩
    simp only [Descriptor.prepareInsert, insertable, Descriptor.encode_eq]
    rfl
  · intro row whole present kept
    have present := row?_eq_ok_some_iff.mp present
    let operation : Operation := ⟨.update, descriptor.table, record.id, record.document⟩
    have free : operation.isStuck (stored? store operation.table operation.id) = false := by
      rw [present]
      rfl
    have fits : (kind store).Fits (overwrite row record.document) :=
      (fits_of_stored? present).overwrite (fits_of_isReadable record.isReadable_document)
    have written : operation.written (kind store).row
        (stored? store operation.table operation.id)
          = .ok (some (overwrite row record.document)) := by
      rw [present]
      exact congrArg Except.ok (row_eq_some_iff.mpr ⟨fits, kept⟩)
    obtain ⟨answer, stored⟩ := execute_of_written inTime free written
    refine ⟨operation, ?_, answer,
      Descriptor.fetch_present stored (Record.decode?_overwrite finite row), _,
      row?_eq_ok_some_iff.mpr stored, fun name => record.get?_overwrite_of_notMem row⟩
    simp only [Descriptor.prepareUpdate, Descriptor.encode_eq, Descriptor.restrict, whole]
    rfl

/-- A row of foreign columns, one of them under the name of a column with a value that is none of
its type, is overwritten with extreme numbers, bytes and a text that needs escapes.
-/
theorem records_round_trip_over_foreign_row
    : let probe : Entity := {
        entity := "probe", timeBucket := "time_bucket"
        columns := [⟨"id", .string, .nonMerge⟩, ⟨"time_bucket", .long, .max⟩,
          ⟨"load", .double, .add⟩, ⟨"errors", .integer, .min⟩, ⟨"blob", .byte, .coverMerge⟩,
          ⟨"name", .string, .coverMerge⟩] }
      let record : Record probe := ⟨[.string "a", .long (-9223372036854775808),
        .double ⟨0x3fe0000000000000⟩, .integer 2147483647, .byte [0, 255], .string "\"\n"], rfl⟩
      let row : Document := .ofList [("note", .text "x"), ("load", .null)]
      let keeper : Descriptor := ⟨"probes", none, true, none⟩
      let store := (TableStore.execute (Backend.ofKind .database)
        [⟨.insert, "probes", "a", row⟩] .ahead).2
      record.IsFinite
        ∧ (kind store).drops .ahead = false
        ∧ keeper.updateColumns = none
        ∧ TableStore.row? store keeper.table record.id = .ok (some row)
        ∧ (kind store).kept (overwrite row record.document) = overwrite row record.document
        ∧ ∃ operation changed, keeper.prepareUpdate record = .ok operation
          ∧ let updated := (TableStore.execute store [operation] .ahead).2
            keeper.fetch (Record probe) updated "a" = .ok (some record)
            ∧ TableStore.row? updated "probes" "a" = .ok (some changed)
            ∧ changed.get? "note" = some (.text "x") := by
  intro probe record row keeper store
  have finite : record.IsFinite := by decide
  have rowReads : ReadsBack row := by with_unfolding_all rfl
  have recordReads : ReadsBack record.document := by
    refine Record.readsBack_document fun column member double => ?_
    have only : column = ⟨"load", .double, .add⟩ :=
      (by decide : ∀ column ∈ probe.columns, column.type = .double →
        column = ⟨"load", .double, .add⟩) column member double
    rw [only]
    set_option maxRecDepth 4000 in with_unfolding_all rfl
  have present : TableStore.row? store keeper.table record.id = .ok (some row) := by
    have absent : stored? (Backend.ofKind .database) "probes" "a" = none := by decide +kernel
    have stored : stored? store "probes" "a" = some (BackendKind.database.row row) :=
      (execute_insert_of_absent rfl absent row).2
    exact row?_eq_ok_some_iff.mpr (stored.trans (congrArg some rowReads))
  have kept : (kind store).kept (overwrite row record.document)
      = overwrite row record.document :=
    (Document.reread?_eq_some_iff.mp (rowReads.overwrite recordReads)).2
  obtain ⟨_, update⟩ := (records_round_trip finite).2 keeper store .ahead rfl
  obtain ⟨operation, prepared, _, fetched, changed, stored, others⟩ := update row rfl present kept
  refine ⟨finite, rfl, rfl, present, kept, operation, changed, prepared, fetched, stored, ?_⟩
  exact others "note" (by decide)

end Storage

end Telemetry
