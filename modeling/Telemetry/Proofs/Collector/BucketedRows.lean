import Telemetry.Proofs.Collector.RetentionHorizon
import Telemetry.Proofs.Records.LenientFolds
import Telemetry.Proofs.Storage.DrainedBatches

/-! The time buckets of rows. A record is dated by the first observation of it, so a worker that
writes a row keeps the bucket that is there, and deletions take a row that was written as they took
the one before.
-/

namespace Telemetry

open Storage HasPlainForm

-----------------------------------------------------------------------------------------
-- Records and their documents
-----------------------------------------------------------------------------------------

/-- The column that dates the records of bucketed tables. -/
def bucketColumn : Column :=
  ⟨"time_bucket", .long, .nonMerge⟩

/-- Whether records of an entity are dated by that column. -/
def Entity.IsBucketed (entity : Entity) : Prop :=
  entity.timeBucket = "time_bucket" ∧ bucketColumn ∈ entity.columns

instance (entity : Entity) : Decidable entity.IsBucketed :=
  inferInstanceAs (Decidable (_ ∧ _))

theorem bucket?_of_get? {row : Document} {column : String} {number : Int64}
    (h : row.get? column = some (.int number.toInt))
    : bucket? row column = some number.toInt := by
  have least := number.le_toInt
  have greatest := number.toInt_lt
  have bounds : -2 ^ 63 ≤ number.toInt ∧ number.toInt < 2 ^ 63 := by omega
  simp only [bucket?, h, Option.bind_some, Value.signed64?, if_pos bounds]

/-- A store keeps the whole numbers of a document. -/
theorem bucket?_kept_of_get? (kind : BackendKind) {document : Document} {column : String}
    {number : Int64} (h : document.get? column = some (.int number.toInt))
    : bucket? (kind.kept document) column = some number.toInt := by
  refine bucket?_of_get? ?_
  rw [kind.get?_kept, h]
  cases kind <;> simp [BackendKind.keptPlain, Value.reread]

namespace Record

variable {entity : Entity}

/-- The time bucket of a record is the number in the column that dates it. -/
theorem exists_timeBucket_of_column {column : Column} (named : entity.timeBucket = column.name)
    (member : column ∈ entity.columns) (long : column.type = .long) (record : Record entity)
    : ∃ number, record.value column = .long number ∧ record.timeBucket = number.toInt := by
  obtain ⟨number, value⟩ := ColumnValue.exists_long ((record.type_value member).trans long)
  have exposed : record.column? column.name = some (.long number) :=
    value ▸ record.column?_eq_value member
  refine ⟨number, value, ?_⟩
  unfold timeBucket
  rw [named, exposed]

theorem exists_timeBucket (bucketed : entity.IsBucketed) (record : Record entity)
    : ∃ number, record.value bucketColumn = .long number ∧ record.timeBucket = number.toInt :=
  exists_timeBucket_of_column bucketed.1 bucketed.2 rfl record

/-- A merged record keeps the time bucket of the earlier one. -/
theorem timeBucket_of_merge (bucketed : entity.IsBucketed) {mode : MergeMode}
    {existing incoming merged : Record entity} (h : mode.merge existing incoming = .ok merged)
    : merged.timeBucket = existing.timeBucket := by
  obtain ⟨number, value, bucket⟩ := existing.exists_timeBucket bucketed
  obtain ⟨other, valueMerged, bucketMerged⟩ := merged.exists_timeBucket bucketed
  have same := value_of_nonMerge h bucketed.2 rfl
  rw [value, valueMerged] at same
  rw [bucket, bucketMerged, ColumnValue.long.inj same]

/-- A row that is read as a record shows the time bucket of the record. -/
theorem bucket?_of_decode? (bucketed : entity.IsBucketed) {row : Document} {record : Record entity}
    (h : decode? (.ofDocument row) = some record)
    : bucket? row "time_bucket" = some record.timeBucket := by
  obtain ⟨number, value, bucket⟩ := record.exists_timeBucket bucketed
  have read := value_of_decode? h bucketed.2
  obtain ⟨written, found, decoded⟩ := Option.bind_eq_some_iff.mp read
  rw [value] at decoded
  obtain ⟨label, within, same⟩ := Option.map_eq_some_iff.mp decoded
  obtain ⟨rfl, least, greatest⟩ := Value.intWithin?_eq_some within
  have label_eq : number.toInt = label := by
    rw [← ColumnValue.long.inj same, Int64.toInt_ofInt_of_le least (by omega)]
  rw [bucket]
  exact bucket?_of_get? (label_eq ▸ found)

/-- A row that a store keeps of a document with the time bucket of a record shows that bucket. -/
theorem bucket?_kept (bucketed : entity.IsBucketed) (kind : BackendKind) (record : Record entity)
    {document : Document} (same : document.get? "time_bucket" = record.document.get? "time_bucket")
    : bucket? (kind.kept document) "time_bucket" = some record.timeBucket := by
  obtain ⟨number, value, bucket⟩ := record.exists_timeBucket bucketed
  have found : document.get? "time_bucket" = some (.int number.toInt) := by
    have written := record.get?_document bucketed.2
    rw [value] at written
    exact same.trans written
  rw [bucket]
  exact bucket?_kept_of_get? kind found

end Record

-----------------------------------------------------------------------------------------
-- Rows that workers write
-----------------------------------------------------------------------------------------

namespace Storage

/-- A worker keeps the time bucket of a row that is there and gives a new one that of the record. -/
theorem Worker.bucket?_written {entity : Entity} {S : Type} [TableStore S] [HasPlainForm S]
    (bucketed : entity.IsBucketed) {worker : Worker (Record entity)} {store : S}
    (whole : worker.descriptor.updateColumns = none) {record : Record entity}
    {operation : Operation} (prepared : worker.prepare store record = .ok operation)
    (kind : BackendKind) {document : Document}
    (written : operation.written kind.row
      (stored? store worker.descriptor.table record.id) = .ok (some document))
    : bucket? document "time_bucket"
      = match stored? store worker.descriptor.table record.id with
        | none => some record.timeBucket
        | some row => row.bind (bucket? · "time_bucket") := by
  rcases prepare_eq_ok prepared with
    ⟨absent, rfl⟩ | ⟨row, persisted, merged, present, decoded, merges, rfl⟩
  · rw [absent] at written ⊢
    obtain ⟨_, rfl⟩ := kind.row_eq_some_iff.mp (Except.ok.inj written)
    exact Record.bucket?_kept bucketed kind record rfl
  · rw [present] at written ⊢
    obtain ⟨_, rfl⟩ := kind.row_eq_some_iff.mp (Except.ok.inj written)
    dsimp only [Option.bind_some]
    rw [Record.bucket?_of_decode? bucketed decoded, ← Record.timeBucket_of_merge bucketed merges]
    refine Record.bucket?_kept bucketed kind merged ?_
    simp only [Descriptor.restrict, whole, overwrite, KeyMap.get?_insertAll_entries]
    have held : merged.document.get? "time_bucket" = some _ := merged.get?_document bucketed.2
    rw [held, Option.some_or]

/-- A row that a worker writes has a time bucket. -/
theorem Worker.exists_bucket?_written {entity : Entity} {S : Type} [TableStore S] [HasPlainForm S]
    (bucketed : entity.IsBucketed) {worker : Worker (Record entity)} {store : S}
    (whole : worker.descriptor.updateColumns = none) {record : Record entity}
    {operation : Operation} (prepared : worker.prepare store record = .ok operation)
    (kind : BackendKind) {document : Document}
    (written : operation.written kind.row
      (stored? store worker.descriptor.table record.id) = .ok (some document))
    : ∃ bucket, bucket? document "time_bucket" = some bucket := by
  rw [bucket?_written bucketed whole prepared kind written]
  rcases prepare_eq_ok prepared with ⟨absent, _⟩ | ⟨row, persisted, _, present, decoded, _, _⟩
  · rw [absent]
    exact ⟨record.timeBucket, rfl⟩
  · rw [present]
    exact ⟨persisted.timeBucket, Record.bucket?_of_decode? bucketed decoded⟩

/-- Whether a table drops rows of a time bucket when it deletes the history of some instants. -/
def Descriptor.covers (descriptor : Descriptor) (startMillis endMillis : Int) (bucket : Int)
    : Bool :=
  match descriptor.retention with
  | none => false
  | some retention =>
      match retention.granularity.resolveRange? startMillis endMillis with
      | none => false
      | some (first, last) => first ≤ bucket && bucket ≤ last

/-- A row is dropped exactly if its time bucket is covered. -/
theorem Descriptor.drops_eq_true_iff {descriptor : Descriptor} {startMillis endMillis : Int}
    (column : ∀ retention, descriptor.retention = some retention →
      retention.column = "time_bucket") (row : Document)
    : descriptor.drops startMillis endMillis row = true
      ↔ ∃ bucket, bucket? row "time_bucket" = some bucket
          ∧ descriptor.covers startMillis endMillis bucket = true := by
  unfold drops covers
  cases kept : descriptor.retention with
  | none => simp
  | some retention =>
      dsimp only
      cases retention.granularity.resolveRange? startMillis endMillis with
      | none => simp
      | some bounds =>
          rw [column retention kept]
          unfold bucket? columnInRange
          cases (row.get? "time_bucket").bind Value.signed64? <;> simp

end Storage

end Telemetry
