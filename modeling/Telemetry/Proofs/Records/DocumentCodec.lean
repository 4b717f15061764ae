import Telemetry.Document.Reread
import Telemetry.Proofs.KeyMaps
import Telemetry.Proofs.Records.RecordColumns

/-! Documents that hold all columns of an entity are read back column by column, whatever else they
hold. A record of finite doubles comes back from its document as it was, and from the text of its
document with its doubles as that text is read.
-/

namespace Telemetry

-----------------------------------------------------------------------------------------
-- Values
-----------------------------------------------------------------------------------------

namespace Document.Number

/-- A number token is read as a number. -/
theorem read?_eq_some {token : List Char} {value : Value} (h : read? token = some value)
    : (∃ number, value = .int number) ∨ ∃ number, value = .float number := by
  rw [read?, Option.bind_eq_bind, Option.bind_eq_some_iff] at h
  obtain ⟨parts, _, h⟩ := h
  rcases ite_eq_iff.mp h with ⟨_, h⟩ | ⟨_, h⟩
  · exact .inl ⟨_, (Option.some.inj h).symm⟩
  · rw [Option.bind_eq_bind, Option.bind_eq_some_iff] at h
    obtain ⟨scaled, _, h⟩ := h
    exact .inr ⟨_, (Option.some.inj h).symm⟩

end Document.Number

/-- The double that the text of a double is read as. -/
def Double.reread (number : Double) : Double :=
  match Value.rereadDouble number with
  | .float other => other
  | .int other => .ofInt other
  | _ => number

namespace ColumnValue

/-- The value that is read back from the text of a value. -/
def reread : ColumnValue → ColumnValue
  | double number => double number.reread
  | value => value

@[simp] theorem type_reread (value : ColumnValue) : value.reread.type = value.type := by
  cases value <;> rfl

theorem reread_of_ne_double {value : ColumnValue} (h : value.type ≠ .double)
    : value.reread = value := by
  cases value with
  | double number => exact absurd rfl h
  | _ => rfl

/-- Whether a value has a plain form, as all but infinite doubles and NaNs have. -/
def IsFinite : ColumnValue → Prop
  | double number => number.isFinite
  | _ => True

instance : DecidablePred IsFinite
  | double number => inferInstanceAs (Decidable (number.isFinite = true))
  | string _ | long _ | integer _ | byte _ => .isTrue trivial

end ColumnValue

theorem Value.intWithin?_eq_some {least greatest number : Int} {value : Value}
    (h : value.intWithin? least greatest = some number)
    : value = .int number ∧ least ≤ number ∧ number ≤ greatest := by
  unfold intWithin? at h
  split at h
  · split at h
    next within => cases h; exact ⟨rfl, within⟩
    next => cases h
  · cases h

namespace Record

theorem decodeByte?_int (byte : UInt8) : decodeByte? (.int byte.toNat) = some byte := by
  have small := byte.toNat_lt
  have bounds : (0 : Int) ≤ byte.toNat ∧ (byte.toNat : Int) ≤ 2 ^ 8 - 1 := by omega
  simp only [decodeByte?, Value.natOfBits?, Value.intWithin?, if_pos bounds, Option.map_some,
    Int.toNat_natCast, UInt8.ofNat_toNat]

theorem mapM_decodeByte? (bytes : List UInt8)
    : (bytes.map fun byte => Value.int byte.toNat).mapM decodeByte? = some bytes := by
  induction bytes with
  | nil => rfl
  | cons byte rest ih => simp [decodeByte?_int, ih]

/-- A value with a plain form is read back from it. -/
theorem decodeValue?_encodeValue {value : ColumnValue} (finite : value.IsFinite)
    : decodeValue? value.type (encodeValue value) = some value := by
  cases value with
  | string text => rfl
  | long number =>
      have bounds : -2 ^ 63 ≤ number.toInt ∧ number.toInt ≤ 2 ^ 63 - 1 := by
        have least := number.le_toInt
        have greatest := number.toInt_lt
        omega
      simp only [ColumnValue.type, encodeValue, decodeValue?, Value.intWithin?, if_pos bounds,
        Option.map_some, Int64.ofInt_toInt]
  | integer number =>
      have bounds : -2 ^ 31 ≤ number.toInt ∧ number.toInt ≤ 2 ^ 31 - 1 := by
        have least := number.le_toInt
        have greatest := number.toInt_lt
        omega
      simp only [ColumnValue.type, encodeValue, decodeValue?, Value.intWithin?, if_pos bounds,
        Option.map_some, Int32.ofInt_toInt]
  | double number =>
      have finite : number.isFinite = true := finite
      simp only [ColumnValue.type, encodeValue, finite, if_true, decodeValue?]
  | byte bytes =>
      simp only [ColumnValue.type, encodeValue, decodeValue?, mapM_decodeByte?, Option.map_some]

end Record

theorem Value.rereadAll_int (bytes : List UInt8)
    : Value.rereadAll (bytes.map fun byte => Value.int byte.toNat)
      = bytes.map fun byte => Value.int byte.toNat := by
  induction bytes with
  | nil => rfl
  | cons byte rest ih => simp only [List.map_cons, Value.rereadAll, Value.reread, ih]

/-- The text of a double is read as a double again. -/
theorem Record.decodeValue?_rereadDouble (number : Double)
    : decodeValue? .double (Value.rereadDouble number) = some (.double number.reread) := by
  have numeric : (∃ other, Value.rereadDouble number = .int other)
      ∨ ∃ other, Value.rereadDouble number = .float other := by
    unfold Value.rereadDouble
    cases read : Document.Number.read?
        (Text.decimalText Value.decimalStyle number).toList with
    | none => exact .inr ⟨number, rfl⟩
    | some value => exact Document.Number.read?_eq_some read
  unfold Double.reread
  rcases numeric with ⟨other, read⟩ | ⟨other, read⟩
  · rw [read]; rfl
  · rw [read]; rfl

/-- The plain form of a value that is no double reads back. -/
theorem Record.reread_encodeValue {value : ColumnValue} (h : value.type ≠ .double)
    : (encodeValue value).reread = encodeValue value := by
  cases value with
  | double _ => exact absurd rfl h
  | byte bytes => simp only [encodeValue, Value.reread, Value.rereadAll_int]
  | _ => rfl

/-- A value with a plain form is read back from the text of it, but for doubles as they are read. -/
theorem Record.decodeValue?_reread {value : ColumnValue} (finite : value.IsFinite)
    : decodeValue? value.type (encodeValue value).reread = some value.reread := by
  by_cases h : value.type = .double
  · cases value with
    | double number =>
        have finite : number.isFinite = true := finite
        simp only [ColumnValue.type, encodeValue, finite, if_true, Value.reread]
        exact decodeValue?_rereadDouble number
    | _ => cases h
  · rw [reread_encodeValue h, ColumnValue.reread_of_ne_double h]
    exact decodeValue?_encodeValue finite

-----------------------------------------------------------------------------------------
-- Documents
-----------------------------------------------------------------------------------------

namespace Value

/-- The fields of a document are its columns. -/
theorem requiredFields?_ofDocument (names : List String) (document : Document)
    : (ofDocument document).requiredFields? names = names.mapM document.get? := by
  have once : ((document.entries.filter fun field => names.contains field.1).map (·.1)).Nodup :=
    (List.filter_sublist.map _).nodup document.nodup_keys
  simp only [requiredFields?, slots?, ofDocument, if_pos once, Option.bind_eq_bind,
    Option.bind_some]
  rw [List.mapM_map]
  congr 1
  funext name
  change _ = document.entries.lookup name
  simp only [Function.comp_apply]
  cases document.entries.lookup name <;> rfl

end Value

namespace Record

variable {entity : Entity}

/-- Columns are read one after the other, by induction over the columns. -/
theorem decodeColumns?_eq_some {columns : List Column} {lookup : String → Option Value}
    {f : Column → ColumnValue}
    (h : ∀ column ∈ columns, (lookup column.name).bind (decodeValue? column.type)
      = some (f column))
    : ∃ values, (columns.map (·.name)).mapM lookup = some values
        ∧ ∃ read, decodeColumns? columns values = some read ∧ read.val = columns.map f := by
  induction columns with
  | nil => exact ⟨[], rfl, ⟨[], rfl⟩, rfl, rfl⟩
  | cons column rest ih =>
      obtain ⟨value, found, here⟩ := Option.bind_eq_some_iff.mp (h column List.mem_cons_self)
      obtain ⟨values, listed, read, reads, same⟩ :=
        ih fun other member => h other (List.mem_cons_of_mem _ member)
      refine ⟨value :: values, by simp [found, listed], ⟨f column :: read.val, ?_⟩, ?_, ?_⟩
      · simp [type_of_decodeValue? here, read.property]
      · rw [decodeColumns?]
        split
        next first others first_eq others_eq =>
          cases here.symm.trans first_eq
          cases reads.symm.trans others_eq
          rfl
        next none => exact absurd reads (none _ _ here)
      · exact congrArg (f column :: ·) same

/-- A document that holds a value for every column is read as the record of these values. -/
theorem decode?_ofDocument {document : Document} {record : Record entity}
    (h : ∀ column ∈ entity.columns,
      (document.get? column.name).bind (decodeValue? column.type) = some (record.value column))
    : decode? (.ofDocument document) = some record := by
  obtain ⟨values, listed, read, reads, same⟩ := decodeColumns?_eq_some h
  have fields : (Value.ofDocument document).requiredFields? entity.names = some values :=
    (Value.requiredFields?_ofDocument _ _).trans listed
  simp only [decode?, fields, reads, Option.bind_eq_bind, Option.bind_some]
  refine congrArg some (ext_value fun column member => ?_)
  exact value_of_values_eq same member

/-- The columns that are read at all are read one after the other, by induction over them. -/
theorem map_decodeValue?_eq {columns : List Column} {lookup : String → Option Value}
    {values : List Value}
    {read : { values : List ColumnValue // values.map (·.type) = columns.map (·.type) }}
    (listed : (columns.map (·.name)).mapM lookup = some values)
    (reads : decodeColumns? columns values = some read)
    : columns.map (fun column => (lookup column.name).bind (decodeValue? column.type))
      = read.val.map some := by
  induction columns generalizing values with
  | nil =>
      cases listed
      cases reads
      rfl
  | cons column rest ih =>
      rw [List.map_cons, List.mapM_cons, Option.bind_eq_bind, Option.bind_eq_some_iff] at listed
      obtain ⟨value, found, more⟩ := listed
      obtain ⟨others, listedOthers, made⟩ := Option.bind_eq_some_iff.mp more
      cases made
      rw [decodeColumns?] at reads
      split at reads
      next first others here later =>
        cases reads
        rw [List.map_cons, ih listedOthers later, found, Option.bind_some]
        exact congrArg (· :: others.val.map some) here
      next => cases reads

/-- A record that is read from a document has the values that its columns are read as. -/
theorem value_of_decode? {document : Document} {record : Record entity}
    (h : decode? (.ofDocument document) = some record) {column : Column}
    (member : column ∈ entity.columns)
    : (document.get? column.name).bind (decodeValue? column.type) = some (record.value column) := by
  obtain ⟨values, fields, h⟩ := Option.bind_eq_some_iff.mp h
  obtain ⟨read, reads, made⟩ := Option.bind_eq_some_iff.mp h
  rw [Value.requiredFields?_ofDocument] at fields
  have columns := map_decodeValue?_eq fields reads
  cases made
  have values := Record.values_eq ⟨read.val, read.property⟩
  rw [show read.val = _ from values, List.map_map] at columns
  exact List.map_inj_left.mp columns column member

theorem document_eq (record : Record entity)
    : record.document = .ofList (entity.columns.map fun column =>
        (column.name, encodeValue (record.value column))) := by
  rw [document, cells_eq, List.map_map]
  rfl

theorem nodup_documentKeys (record : Record entity)
    : ((entity.columns.map fun column =>
        (column.name, encodeValue (record.value column))).map (·.1)).Nodup := by
  rw [List.map_map]
  exact entity.distinct

/-- The document of a record holds the plain forms of its columns. -/
theorem get?_document (record : Record entity) {column : Column}
    (member : column ∈ entity.columns)
    : record.document.get? column.name = some (encodeValue (record.value column)) := by
  rw [document_eq, KeyMap.get?_ofList record.nodup_documentKeys]
  exact KeyMap.lookup_of_mem record.nodup_documentKeys (List.mem_map.mpr ⟨column, member, rfl⟩)

/-- The document of a record holds nothing but its columns. -/
theorem get?_document_of_notMem (record : Record entity) {name : String}
    (h : name ∉ entity.columns.map (·.name))
    : record.document.get? name = none := by
  rw [document_eq, KeyMap.get?_ofList record.nodup_documentKeys, List.lookup_eq_none_iff]
  intro entry listed
  obtain ⟨column, member, rfl⟩ := List.mem_map.mp listed
  have ne : name ≠ column.name := fun same =>
    h (List.mem_map.mpr ⟨column, member, same.symm⟩)
  simpa using ne

/-- Whether a record has a plain form. -/
def IsFinite (record : Record entity) : Prop :=
  ∀ column ∈ entity.columns, (record.value column).IsFinite

instance (record : Record entity) : Decidable record.IsFinite :=
  inferInstanceAs (Decidable (∀ column ∈ entity.columns, (record.value column).IsFinite))

/-- The record that is read back from the text of the document of a record. -/
def reread (record : Record entity) : Record entity :=
  ofValues (fun column => (record.value column).reread) fun _ member =>
    (ColumnValue.type_reread _).trans (record.type_value member)

theorem value_reread (record : Record entity) {column : Column} (member : column ∈ entity.columns)
    : record.reread.value column = (record.value column).reread := by
  unfold reread
  exact value_ofValues member

/-- A document that holds the plain forms of the columns of a record is read as the record. -/
theorem decode?_of_get? {record : Record entity} (finite : record.IsFinite) {document : Document}
    (h : ∀ column ∈ entity.columns,
      document.get? column.name = some (encodeValue (record.value column)))
    : decode? (.ofDocument document) = some record := by
  refine decode?_ofDocument fun column member => ?_
  rw [h column member, Option.bind_some, ← record.type_value member]
  exact decodeValue?_encodeValue (finite column member)

theorem decode?_document {record : Record entity} (finite : record.IsFinite)
    : decode? (.ofDocument record.document) = some record :=
  decode?_of_get? finite fun _ member => record.get?_document member

/-- A record with a plain form is read back from the text of its document. -/
theorem decode?_document_reread {record : Record entity} (finite : record.IsFinite)
    : decode? (.ofDocument record.document.reread) = some record.reread := by
  refine decode?_ofDocument fun column member => ?_
  rw [Document.reread, KeyMap.get?_mapValues, record.get?_document member, Option.map_some,
    Option.bind_some, record.value_reread member, ← record.type_value member]
  exact decodeValue?_reread (finite column member)

end Record

end Telemetry
