import Telemetry.Proofs.Records.AssociativeMerge

/-! Records that arrive more than once. Without sums a record merged with itself stays as it is, so by
associativity a merged record absorbs its later part, and a fold does not tell how many times each
record was delivered in a row.
-/

namespace Telemetry

-----------------------------------------------------------------------------------------
-- One column
-----------------------------------------------------------------------------------------

/-- The extrema of a whole number and itself are that number. -/
theorem MergeMode.wholeNumbers_self {rule : MergeRule} (h : rule ≠ .add) (number : Int64)
    : wholeNumbers rule number number = number := by
  cases rule with
  | add => exact absurd rfl h
  | max | min => exact ite_self number
  | nonMerge | coverMerge => rfl

/-- A column that is no sum keeps a value that is combined with itself. -/
theorem Column.combine_self {column : Column} (whole : column.IsWhole) (noSum : column.rule ≠ .add)
    {value : ColumnValue} (typed : value.type = column.type)
    : column.combine value value = value := by
  cases arithmetic : column.rule.isArithmetic with
  | false => rw [combine_of_not_arithmetic arithmetic, ite_self]
  | true =>
      have wholeNumber := whole.1 arithmetic
      rw [combine_of_arithmetic arithmetic]
      cases type : column.type with
      | string | double | byte => rw [type] at wholeNumber; cases wholeNumber
      | long =>
          obtain ⟨number, rfl⟩ := ColumnValue.exists_long (typed.trans type)
          exact congrArg ColumnValue.long (MergeMode.wholeNumbers_self noSum number)
      | integer =>
          obtain ⟨number, rfl⟩ := ColumnValue.exists_integer (typed.trans type)
          have same := MergeMode.wholeNumbers_self noSum number.toInt64
          exact congrArg ColumnValue.integer
            ((congrArg Int64.toInt32 same).trans (Int32.toInt32_toInt64 number))

-----------------------------------------------------------------------------------------
-- Whole records
-----------------------------------------------------------------------------------------

def Entity.HasNoSums (entity : Entity) : Prop :=
  ∀ column ∈ entity.columns, column.rule ≠ .add

instance (entity : Entity) : Decidable entity.HasNoSums :=
  inferInstanceAs (Decidable (∀ column ∈ entity.columns, column.rule ≠ .add))

namespace Record

variable {entity : Entity} {first second merged : Record entity}

/-- The records of some deliveries, each one repeated as often as it came again. -/
def delivered (deliveries : List (Record entity × Nat)) : List (Record entity) :=
  deliveries.flatMap fun (record, again) => record :: List.replicate again record

theorem merge_self (whole : entity.IsWhole) (noSums : entity.HasNoSums) (mode : MergeMode)
    (record : Record entity)
    : mode.merge record record = .ok record := by
  obtain ⟨merged, merges, _, values⟩ := merge_lenient whole.isMergeable (rfl : record.id = record.id)
  have same : merged = record := ext_value fun column member =>
    (values column member).trans
      (Column.combine_self (whole column member) (noSums column member) (record.type_value member))
  exact (merge_eq_ok_iff_accepts whole).mpr ⟨fun _ _ _ _ => rfl, same ▸ merges⟩

/-- A merged record absorbs its later part, which can be merged with itself first. -/
theorem merge_again (whole : entity.IsWhole) (noSums : entity.HasNoSums) {mode : MergeMode}
    (merges : mode.merge first second = .ok merged)
    : mode.merge merged second = .ok merged := by
  have same : first.id = second.id := (merge_eq_ok_iff.mp merges).1
  have regrouped := (merge_assoc whole mode same rfl).mpr
    (bind_eq_ok.mpr ⟨second, merge_self whole noSums mode second, merges⟩)
  obtain ⟨_, before, more⟩ := bind_eq_ok.mp regrouped
  cases before.symm.trans merges
  exact more

/-- Merging some deliveries into a record fails or succeeds as merging each of them once does, by
induction over the deliveries.
-/
theorem foldlM_delivered (whole : entity.IsWhole) (noSums : entity.HasNoSums) (mode : MergeMode)
    (deliveries : List (Record entity × Nat)) (total : Record entity)
    : (delivered deliveries).foldlM mode.merge total
      = (deliveries.map Prod.fst).foldlM mode.merge total := by
  induction deliveries generalizing total with
  | nil => rfl
  | cons delivery rest ih =>
      obtain ⟨record, again⟩ := delivery
      rw [delivered, List.flatMap_cons, List.cons_append, List.foldlM_cons, List.map_cons,
        List.foldlM_cons]
      cases merges : mode.merge total record with
      | error error => rfl
      | ok merged =>
          have stays := foldlM_replicate (merge_again whole noSums merges) again
          change (List.replicate again record ++ delivered rest).foldlM mode.merge merged
            = (rest.map Prod.fst).foldlM mode.merge merged
          rw [List.foldlM_append, stays]
          exact ih merged

/-- Repeated records change nothing in entities without sums. In both modes a record merged with
itself stays as it is, a merged record stays as it is when its later part is merged into it again,
and a fold has the same outcome whether each record comes once or several times in a row.
-/
theorem repeated_records_change_nothing (whole : entity.IsWhole) (noSums : entity.HasNoSums)
    (mode : MergeMode)
    : (∀ record : Record entity, mode.merge record record = .ok record)
      ∧ (∀ first second merged : Record entity, mode.merge first second = .ok merged →
          mode.merge merged second = .ok merged)
      ∧ ∀ deliveries : List (Record entity × Nat),
          mode.fold (delivered deliveries) = mode.fold (deliveries.map Prod.fst) := by
  refine ⟨merge_self whole noSums mode, fun _ _ _ => merge_again whole noSums, ?_⟩
  intro deliveries
  cases deliveries with
  | nil => rfl
  | cons delivery rest =>
      obtain ⟨record, again⟩ := delivery
      have stays := foldlM_replicate (merge_self whole noSums mode record) again
      change ((List.replicate again record ++ delivered rest).foldlM mode.merge record).map some
        = ((rest.map Prod.fst).foldlM mode.merge record).map some
      rw [List.foldlM_append, stays]
      exact congrArg (Except.map some) (foldlM_delivered whole noSums mode rest record)

/-- Extrema of both widths, the last name and the last load are those of three records, of which two
come again.
-/
theorem repeated_records_change_nothing_between_others
    : let calls : Entity := {
        entity := "calls", timeBucket := "time_bucket"
        columns := [⟨"id", .string, .nonMerge⟩, ⟨"time_bucket", .long, .nonMerge⟩,
          ⟨"name", .string, .coverMerge⟩, ⟨"load", .double, .coverMerge⟩,
          ⟨"slowest", .integer, .max⟩, ⟨"fastest", .long, .min⟩] }
      let record (name : String) (load : Double) (slowest : Int32) (fastest : Int64)
          : Record calls :=
        ⟨[.string "a", .long 20240106, .string name, .double load, .integer slowest,
          .long fastest], rfl⟩
      let deliveries := [(record "x" .zero 5 (-9), 2), (record "y" ⟨0x7ff8000000000000⟩ 7 4, 0),
        (record "z" ⟨0x3fe0000000000000⟩ 6 (-7), 3)]
      calls.IsWhole ∧ calls.HasNoSums
      ∧ (delivered deliveries).length = 8
      ∧ MergeMode.strict.fold (delivered deliveries)
          = .ok (some (record "z" ⟨0x3fe0000000000000⟩ 7 (-9))) := by
  intro calls record deliveries
  have whole : calls.IsWhole := by decide
  have noSums : calls.HasNoSums := by decide
  obtain ⟨_, _, folds⟩ := repeated_records_change_nothing whole noSums .strict
  refine ⟨whole, noSums, rfl, (folds deliveries).trans ?_⟩
  with_unfolding_all rfl

end Record

end Telemetry
