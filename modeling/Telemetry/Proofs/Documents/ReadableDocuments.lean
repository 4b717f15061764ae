import Telemetry.Document.Reread
import Telemetry.Proofs.KeyMaps
import Telemetry.Storage.Operation

/-! Documents that can be read again once they are written. A document is readable by its columns
one by one, so overwriting some of them with readable ones keeps it so, and what is read is again
readable.
-/

namespace Telemetry

namespace Value

/-- A number token is no container. -/
theorem nesting_of_read? {token : List Char} {value : Value}
    (h : Document.Number.read? token = some value)
    : value.nesting = 0 := by
  obtain ⟨parts, _, rest⟩ := Option.bind_eq_some_iff.mp h
  dsimp only at rest
  split at rest <;> split at rest
  case isTrue.isTrue | isFalse.isTrue => cases rest; rfl
  case isTrue.isFalse | isFalse.isFalse =>
    obtain ⟨_, _, last⟩ := Option.bind_eq_some_iff.mp rest
    cases last
    rfl

theorem nesting_rereadDouble (number : Double) : (rereadDouble number).nesting = 0 := by
  unfold rereadDouble
  cases read : Document.Number.read? (Text.decimalText decimalStyle number).toList with
  | none => rfl
  | some value => exact nesting_of_read? read

mutual

/-- Reading a text again changes doubles alone. -/
theorem nesting_reread (value : Value) : value.reread.nesting = value.nesting := by
  cases value with
  | float number => exact nesting_rereadDouble number
  | list items => rw [reread, nesting, nesting, nestingAll_rereadAll]
  | object fields => rw [reread, nesting, nesting, nestingFields_rereadFields]
  | null | bool | int | text => rfl

theorem nestingAll_rereadAll (items : List Value)
    : nestingAll (rereadAll items) = nestingAll items := by
  cases items with
  | nil => rfl
  | cons value rest =>
      rw [rereadAll, nestingAll, nestingAll, nesting_reread, nestingAll_rereadAll]

theorem nestingFields_rereadFields (fields : List (String × Value))
    : nestingFields (rereadFields fields) = nestingFields fields := by
  cases fields with
  | nil => rfl
  | cons field rest =>
      obtain ⟨name, value⟩ := field
      rw [rereadFields, nestingFields, nestingFields, nesting_reread, nestingFields_rereadFields]

end

theorem nestingFields_lt_iff {fields : List (String × Value)} {limit : Nat} (some : 0 < limit)
    : nestingFields fields < limit ↔ ∀ field ∈ fields, field.2.nesting < limit := by
  induction fields with
  | nil => simp [nestingFields, some]
  | cons field rest ih =>
      rw [nestingFields, List.forall_mem_cons, ← ih]
      exact Nat.max_lt

/-- Every list around a value nests it one deeper. -/
theorem nesting_repeat_list (count : Nat) (value : Value)
    : (Nat.repeat (fun inner => .list [inner]) count value).nesting = value.nesting + count := by
  induction count with
  | zero => rfl
  | succ count ih => rw [Nat.repeat, nesting, nestingAll, ih]; simp [nestingAll]; rfl

end Value

namespace Document

def IsReadable (document : Document) : Prop :=
  (Value.ofDocument document).nesting ≤ Frame.depthLimit

instance : DecidablePred IsReadable :=
  fun document => inferInstanceAs (Decidable ((Value.ofDocument document).nesting ≤ _))

theorem isReadable_iff {document : Document}
    : document.IsReadable
      ↔ ∀ name value, document.get? name = some value → value.nesting < Frame.depthLimit := by
  unfold IsReadable Value.ofDocument
  rw [Value.nesting, Nat.succ_le_iff, Value.nestingFields_lt_iff (by decide)]
  constructor
  · exact fun h name value bound => h (name, value) (KeyMap.get?_eq_some_iff.mp bound)
  · exact fun h field member => h field.1 field.2 (KeyMap.get?_eq_some_iff.mpr member)

theorem reread?_eq_some_iff {document read : Document}
    : document.reread? = some read ↔ document.IsReadable ∧ document.reread = read := by
  simp [reread?, IsReadable]

theorem reread?_eq_none {document : Document} {name : String} {value : Value}
    (bound : document.get? name = some value) (deep : Frame.depthLimit ≤ value.nesting)
    : document.reread? = none :=
  if_neg fun readable => Nat.not_lt_of_ge deep (isReadable_iff.mp readable name value bound)

theorem get?_reread (document : Document) (name : String)
    : document.reread.get? name = (document.get? name).map (·.reread) :=
  KeyMap.get?_mapValues _ _ _

/-- What is read can be written and read again. -/
theorem IsReadable.reread {document : Document} (h : document.IsReadable)
    : document.reread.IsReadable := by
  refine isReadable_iff.mpr fun name value bound => ?_
  rw [get?_reread] at bound
  obtain ⟨written, held, rfl⟩ := Option.map_eq_some_iff.mp bound
  rw [Value.nesting_reread]
  exact isReadable_iff.mp h name written held

/-- Some columns of a readable document make a readable document. -/
theorem IsReadable.filter {document : Document} (h : document.IsReadable)
    (keep : String → Value → Bool)
    : IsReadable (KeyMap.filter document keep) := by
  refine isReadable_iff.mpr fun name value bound => ?_
  rw [KeyMap.get?_filter] at bound
  exact isReadable_iff.mp h name value (Option.filter_eq_some_iff.mp bound).1

end Document

namespace Storage

/-- Readable columns in a readable row make a readable row. -/
theorem isReadable_overwrite {row columns : Document} (hr : row.IsReadable)
    (hc : columns.IsReadable)
    : (overwrite row columns).IsReadable := by
  refine Document.isReadable_iff.mpr fun name value bound => ?_
  rw [overwrite, KeyMap.get?_insertAll_entries] at bound
  rcases Option.or_eq_some_iff.mp bound with own | ⟨_, old⟩
  · exact Document.isReadable_iff.mp hc name value own
  · exact Document.isReadable_iff.mp hr name value old

end Storage

end Telemetry
