import Mathlib.Algebra.BigOperators.Group.List.Basic
import Mathlib.Algebra.Ring.Int.Defs
import Telemetry.Proofs.Records.LenientFolds

/-! Lenient folds in closed form. A column of a fold is the first or the last value of the column,
the sum of all of them cut back to the width of the column, or the greatest or the least of them,
and what is computed does not depend on the order of the records.
-/

namespace Telemetry

-----------------------------------------------------------------------------------------
-- Whole numbers
-----------------------------------------------------------------------------------------

/-- The width of the whole numbers of a type. -/
def ColumnType.bits : ColumnType → Nat
  | integer => 32
  | string | long | double | byte => 64

namespace ColumnValue

/-- The whole number that a value holds, if it is of a type that has them. -/
def number : ColumnValue → Int
  | long number => number.toInt
  | integer number => number.toInt
  | string _ | double _ | byte _ => 0

/-- A value with a whole number is a long or an integer. -/
theorem exists_of_isWhole {value : ColumnValue} (h : value.type.isWhole = true)
    : (∃ number, value = .long number) ∨ ∃ number, value = .integer number := by
  cases value with
  | long number => exact .inl ⟨number, rfl⟩
  | integer number => exact .inr ⟨number, rfl⟩
  | string _ | double _ | byte _ => cases h

theorem bmod_number {value : ColumnValue} (whole : value.type.isWhole = true)
    : value.number.bmod (2 ^ value.type.bits) = value.number := by
  rcases exists_of_isWhole whole with ⟨a, rfl⟩ | ⟨a, rfl⟩
  · exact Int64.toInt_bmod a
  · exact Int32.toInt_bmod a

/-- Values of one type with the same whole number are equal. -/
theorem eq_of_number_eq {first second : ColumnValue} (whole : first.type.isWhole = true)
    (typed : second.type = first.type) (h : first.number = second.number)
    : first = second := by
  rcases exists_of_isWhole whole with ⟨a, rfl⟩ | ⟨a, rfl⟩
  · obtain ⟨b, rfl⟩ := exists_long typed
    exact congrArg long (Int64.toInt_inj.mp h)
  · obtain ⟨b, rfl⟩ := exists_integer typed
    exact congrArg integer (Int32.toInt_inj.mp h)

end ColumnValue

/-- What a rule makes of two whole numbers of a width. -/
def MergeRule.onNumbers (bits : Nat) : MergeRule → Int → Int → Int
  | nonMerge, earlier, _ => earlier
  | coverMerge, _, later => later
  | add, earlier, later => (earlier + later).bmod (2 ^ bits)
  | max, earlier, later => Max.max earlier later
  | min, earlier, later => Min.min earlier later

namespace MergeMode

theorem toInt_wholeNumbers {rule : MergeRule} (arithmetic : rule.isArithmetic = true) (a b : Int64)
    : (wholeNumbers rule a b).toInt = rule.onNumbers 64 a.toInt b.toInt := by
  cases rule with
  | nonMerge | coverMerge => cases arithmetic
  | add => exact Int64.toInt_add a b
  | max =>
      simp only [wholeNumbers, MergeRule.onNumbers, Int64.lt_iff_toInt_lt]
      split <;> omega
  | min =>
      simp only [wholeNumbers, MergeRule.onNumbers, Int64.lt_iff_toInt_lt]
      split <;> omega

/-- Narrow numbers are computed in the wide type and cut back. -/
theorem toInt_wholeNumbers_narrow {rule : MergeRule} (arithmetic : rule.isArithmetic = true)
    (a b : Int32)
    : (wholeNumbers rule a.toInt64 b.toInt64).toInt32.toInt
      = rule.onNumbers 32 a.toInt b.toInt := by
  cases rule with
  | nonMerge | coverMerge => cases arithmetic
  | add =>
      have narrow : (a.toInt64 + b.toInt64).toInt32 = a + b := by simp
      exact (congrArg Int32.toInt narrow).trans (Int32.toInt_add a b)
  | max =>
      simp only [wholeNumbers, MergeRule.onNumbers, Int64.lt_iff_toInt_lt, Int32.toInt_toInt64]
      split <;> rw [Int32.toInt32_toInt64] <;> omega
  | min =>
      simp only [wholeNumbers, MergeRule.onNumbers, Int64.lt_iff_toInt_lt, Int32.toInt_toInt64]
      split <;> rw [Int32.toInt32_toInt64] <;> omega

/-- The greater and the lesser of two narrow numbers are narrow before they are cut back. -/
theorem wholeNumbers_within {rule : MergeRule} (h : rule ≠ .add) (a b : Int32)
    : -2 ^ 31 ≤ (wholeNumbers rule a.toInt64 b.toInt64).toInt
      ∧ (wholeNumbers rule a.toInt64 b.toInt64).toInt < 2 ^ 31 := by
  have narrow := wholeNumbers_narrow rule a b
  rw [if_neg h] at narrow
  rw [narrow, Int32.toInt_toInt64]
  exact ⟨Int32.le_toInt _, Int32.toInt_lt _⟩

end MergeMode

-----------------------------------------------------------------------------------------
-- One column
-----------------------------------------------------------------------------------------

namespace Column

/-- What the values of a column fold into under its rule. -/
def IsFold (column : Column) (values : List ColumnValue) (total : ColumnValue) : Prop :=
  match column.rule with
  | .nonMerge => values.head? = some total
  | .coverMerge => values.getLast? = some total
  | .add => total.number = (values.map ColumnValue.number).sum.bmod (2 ^ column.type.bits)
  | .max => total ∈ values ∧ ∀ value ∈ values, value.number ≤ total.number
  | .min => total ∈ values ∧ ∀ value ∈ values, total.number ≤ value.number

variable {column : Column} {values others : List ColumnValue} {total other value : ColumnValue}

/-- Combining two values of a column computes with their numbers. -/
theorem number_combine (whole : column.ComputesWhole) (ht : total.type = column.type)
    (hv : value.type = column.type)
    : (column.combine total value).number
      = column.rule.onNumbers column.type.bits total.number value.number := by
  cases arithmetic : column.rule.isArithmetic with
  | false =>
      unfold combine
      cases rule : column.rule with
      | nonMerge | coverMerge => rfl
      | add | max | min => rw [rule] at arithmetic; cases arithmetic
  | true =>
      rw [combine_of_arithmetic arithmetic, ← ht]
      rcases ColumnValue.exists_of_isWhole (ht ▸ whole arithmetic) with ⟨a, rfl⟩ | ⟨a, rfl⟩
      · obtain ⟨b, rfl⟩ := ColumnValue.exists_long (hv.trans ht.symm)
        exact MergeMode.toInt_wholeNumbers arithmetic a b
      · obtain ⟨b, rfl⟩ := ColumnValue.exists_integer (hv.trans ht.symm)
        exact MergeMode.toInt_wholeNumbers_narrow arithmetic a b

/-- A value is the fold of itself. -/
theorem isFold_singleton (whole : column.ComputesWhole) (hv : value.type = column.type)
    : column.IsFold [value] value := by
  unfold IsFold
  cases rule : column.rule with
  | nonMerge | coverMerge => rfl
  | add =>
      have wholeNumber : value.type.isWhole = true := hv ▸ whole (by rw [rule]; rfl)
      simp only [List.map_cons, List.map_nil, List.sum_singleton, ← hv]
      exact (ColumnValue.bmod_number wholeNumber).symm
  | max | min => simp

/-- Combining a fold with one more value folds that value in. -/
theorem IsFold.concat (whole : column.ComputesWhole) (ht : total.type = column.type)
    (hv : value.type = column.type) (h : column.IsFold values total)
    : column.IsFold (values ++ [value]) (column.combine total value) := by
  have number := number_combine whole ht hv
  have typed := type_combine whole.isMergeable ht hv
  -- An extremum is one of the values, because it has the number of one of them.
  have mem (arithmetic : column.rule.isArithmetic = true)
      (one : (column.combine total value).number = total.number
        ∨ (column.combine total value).number = value.number)
      (listed : total ∈ values)
      : column.combine total value ∈ values ++ [value] := by
    have wholeNumber : (column.combine total value).type.isWhole = true :=
      typed ▸ whole arithmetic
    rcases one with same | same
    · rw [ColumnValue.eq_of_number_eq wholeNumber (ht.trans typed.symm) same]
      exact List.mem_append_left _ listed
    · rw [ColumnValue.eq_of_number_eq wholeNumber (hv.trans typed.symm) same]
      exact List.mem_append_right _ List.mem_cons_self
  unfold IsFold at h ⊢
  cases rule : column.rule with
  | nonMerge =>
      rw [rule] at h
      simp only [combine, rule, List.head?_append, show values.head? = some total from h]
      rfl
  | coverMerge => simp only [combine, rule, List.getLast?_concat]
  | add =>
      simp only [rule, MergeRule.onNumbers] at h number ⊢
      rw [number, h, Int.bmod_add_bmod, List.map_append, List.sum_append, List.map_singleton,
        List.sum_singleton]
  | max =>
      simp only [rule, MergeRule.onNumbers] at h number mem ⊢
      refine ⟨mem rfl (by omega) h.1, fun other member => ?_⟩
      rcases List.mem_append.mp member with earlier | last
      · have below := h.2 other earlier
        omega
      · rw [List.mem_singleton.mp last]
        omega
  | min =>
      simp only [rule, MergeRule.onNumbers] at h number mem ⊢
      refine ⟨mem rfl (by omega) h.1, fun other member => ?_⟩
      rcases List.mem_append.mp member with earlier | last
      · have above := h.2 other earlier
        omega
      · rw [List.mem_singleton.mp last]
        omega

/-- Combining a fold with more values from the left folds them in, by induction over them. -/
theorem IsFold.append (whole : column.ComputesWhole) (ht : total.type = column.type)
    (hv : ∀ value ∈ others, value.type = column.type) (h : column.IsFold values total)
    : column.IsFold (values ++ others) (others.foldl column.combine total) := by
  induction others generalizing values total with
  | nil => rwa [List.append_nil]
  | cons next rest ih =>
      have here := hv next List.mem_cons_self
      rw [← List.singleton_append, ← List.append_assoc]
      exact ih (type_combine whole.isMergeable ht here)
        (fun value member => hv value (List.mem_cons_of_mem _ member)) (h.concat whole ht here)

/-- What is computed from values does not depend on their order. -/
theorem IsFold.eq_of_perm (whole : column.ComputesWhole)
    (arithmetic : column.rule.isArithmetic = true) (ht : total.type = column.type)
    (ho : other.type = column.type) (h : column.IsFold values total)
    (folded : column.IsFold others other) (perm : others.Perm values)
    : other = total := by
  have wholeNumber : other.type.isWhole = true := ho ▸ whole arithmetic
  refine ColumnValue.eq_of_number_eq wholeNumber (ht.trans ho.symm) ?_
  unfold IsFold at h folded
  cases rule : column.rule with
  | nonMerge | coverMerge => rw [rule] at arithmetic; cases arithmetic
  | add =>
      simp only [rule] at h folded
      rw [h, folded, (perm.map _).sum_eq]
  | max =>
      simp only [rule] at h folded
      exact Int.le_antisymm (h.2 other (perm.mem_iff.mp folded.1))
        (folded.2 total (perm.mem_iff.mpr h.1))
  | min =>
      simp only [rule] at h folded
      exact Int.le_antisymm (folded.2 total (perm.mem_iff.mpr h.1))
        (h.2 other (perm.mem_iff.mp folded.1))

end Column

-----------------------------------------------------------------------------------------
-- Whole records
-----------------------------------------------------------------------------------------

/-- Whether all columns of an entity compute with whole numbers only. -/
def Entity.ComputesWhole (entity : Entity) : Prop :=
  ∀ column ∈ entity.columns, column.ComputesWhole

instance (entity : Entity) : Decidable entity.ComputesWhole :=
  inferInstanceAs (Decidable (∀ column ∈ entity.columns, column.ComputesWhole))

namespace Record

variable {entity : Entity}

/-- Records of one identity fold leniently, every column into what its values fold into. -/
theorem exists_isFold (whole : entity.ComputesWhole) {identity : String}
    {records : List (Record entity)} (some : records ≠ [])
    (same : ∀ record ∈ records, record.id = identity)
    : ∃ total, MergeMode.lenient.fold records = .ok (.some total) ∧ total.id = identity
      ∧ ∀ column ∈ entity.columns,
          column.IsFold (records.map (·.value column)) (total.value column) := by
  obtain ⟨first, rest, rfl⟩ := List.exists_cons_of_ne_nil some
  have here := same first List.mem_cons_self
  have mergeable : entity.IsMergeable := fun column member => (whole column member).isMergeable
  obtain ⟨total, folds, kept, values⟩ := fold_lenient mergeable fun record member =>
    (same record (List.mem_cons_of_mem _ member)).trans here.symm
  refine ⟨total, folds, kept.trans here, fun column member => ?_⟩
  have start := Column.isFold_singleton (whole column member) (first.type_value member)
  rw [values column member]
  refine start.append (whole column member) (first.type_value member) fun value listed => ?_
  obtain ⟨record, _, rfl⟩ := List.mem_map.mp listed
  exact record.type_value member

/-- Records of one identity fold leniently in closed form: a column that is not merged holds the
first value and a covered one the last, a sum is that of all values cut back to the width of the
column, and an extremum is the greatest or the least value. What is computed is the same for the
records in any order, and an extremum of narrow numbers needs no cutting back.
-/
theorem fold_closed_form (whole : entity.ComputesWhole) {identity : String}
    {records : List (Record entity)} (some : records ≠ [])
    (same : ∀ record ∈ records, record.id = identity)
    : (∃ total, MergeMode.lenient.fold records = .ok (.some total) ∧ total.id = identity
        ∧ (∀ column ∈ entity.columns,
            column.IsFold (records.map (·.value column)) (total.value column))
        ∧ ∀ others : List (Record entity), others.Perm records →
            ∃ other, MergeMode.lenient.fold others = .ok (.some other)
              ∧ ∀ column ∈ entity.columns, column.rule.isArithmetic →
                  other.value column = total.value column)
      ∧ ∀ rule : MergeRule, rule = .max ∨ rule = .min → ∀ a b : Int32,
          -2 ^ 31 ≤ (MergeMode.wholeNumbers rule a.toInt64 b.toInt64).toInt
          ∧ (MergeMode.wholeNumbers rule a.toInt64 b.toInt64).toInt < 2 ^ 31 := by
  obtain ⟨total, folds, kept, values⟩ := exists_isFold whole some same
  refine ⟨⟨total, folds, kept, values, fun others perm => ?_⟩, ?_⟩
  · have someOther : others ≠ [] := fun none => some (List.nil_perm.mp (none ▸ perm))
    obtain ⟨other, foldsOther, _, valuesOther⟩ := exists_isFold whole someOther
      fun record member => same record (perm.mem_iff.mp member)
    refine ⟨other, foldsOther, fun column member arithmetic => ?_⟩
    exact (values column member).eq_of_perm (whole column member) arithmetic
      (total.type_value member) (other.type_value member) (valuesOther column member)
      (perm.map _)
  · rintro rule extremum a b
    refine MergeMode.wholeNumbers_within ?_ a b
    rcases extremum with rfl | rfl <;> simp

/-- Sums wrap around at the bounds of both widths and come out alike in any order, extrema keep the
negative bound, and doubles that are not computed are the first and the last ones.
-/
theorem fold_closed_form_at_bounds
    : let calls : Entity := {
        entity := "calls", timeBucket := "time_bucket"
        columns := [⟨"id", .string, .nonMerge⟩, ⟨"time_bucket", .long, .max⟩,
          ⟨"base", .double, .nonMerge⟩, ⟨"load", .double, .coverMerge⟩, ⟨"total", .long, .add⟩,
          ⟨"errors", .integer, .add⟩, ⟨"slowest", .integer, .max⟩, ⟨"fastest", .integer, .min⟩] }
      let record (bucket : Int64) (load : Double) (total : Int64) (number : Int32) : Record calls :=
        ⟨[.string "a", .long bucket, .double load, .double load, .long total, .integer number,
          .integer number, .integer number], rfl⟩
      let records := [record 5 ⟨0x3fe0000000000000⟩ 9223372036854775807 2147483647,
        record 9 .zero 2 2, record 7 ⟨0x7ff8000000000000⟩ 3 (-2147483648)]
      calls.ComputesWhole ∧ records ≠ [] ∧ (∀ record ∈ records, record.id = "a")
      ∧ ∃ total other, MergeMode.lenient.fold records = .ok (some total)
        ∧ (total.value ⟨"total", .long, .add⟩).number = -9223372036854775804
        ∧ (total.value ⟨"errors", .integer, .add⟩).number = 1
        ∧ total.value ⟨"base", .double, .nonMerge⟩ = .double ⟨0x3fe0000000000000⟩
        ∧ MergeMode.lenient.fold records.reverse = .ok (some other)
        ∧ other.value ⟨"fastest", .integer, .min⟩ = total.value ⟨"fastest", .integer, .min⟩ := by
  intro calls record records
  have whole : calls.ComputesWhole := by decide
  have all : ∀ record ∈ records, record.id = "a" := by
    with_unfolding_all decide
  obtain ⟨⟨total, folds, _, values, anyOrder⟩, _⟩ :=
    fold_closed_form whole (List.cons_ne_nil _ _) all
  obtain ⟨other, foldsReverse, computed⟩ := anyOrder records.reverse records.reverse_perm
  refine ⟨whole, List.cons_ne_nil _ _, all, total, other, folds, ?_, ?_, ?_, foldsReverse, ?_⟩
  · exact values ⟨"total", .long, .add⟩ (by decide)
  · exact values ⟨"errors", .integer, .add⟩ (by decide)
  · exact (Option.some.inj (values ⟨"base", .double, .nonMerge⟩ (by decide))).symm
  · exact computed ⟨"fastest", .integer, .min⟩ (by decide) rfl

end Record

end Telemetry
