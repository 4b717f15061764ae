import Telemetry.Proofs.Records.StrictMerges

/-! Merging is associative in both modes as long as doubles are neither computed nor compared.
Strict merging is lenient merging of records that agree in the columns that are not merged, and such
an agreement does not depend on how a sequence of records is cut either.
-/

namespace Telemetry

-----------------------------------------------------------------------------------------
-- One column
-----------------------------------------------------------------------------------------

namespace Column

/-- Whether a column computes with whole numbers only, and replaces doubles. -/
def IsWhole (column : Column) : Prop :=
  (column.rule.isArithmetic → column.type.isWhole)
  ∧ (column.type = .double → column.rule = .coverMerge)

instance : DecidablePred IsWhole :=
  fun column => inferInstanceAs (Decidable ((_ → column.type.isWhole = true) ∧ _))

variable {column : Column}

theorem IsWhole.isMergeable (whole : column.IsWhole) : column.IsMergeable :=
  ComputesWhole.isMergeable whole.1

theorem IsWhole.isExact (whole : column.IsWhole) : column.IsExact := by
  rintro ⟨double, arithmetic⟩
  rw [whole.2 double] at arithmetic
  cases arithmetic

theorem IsWhole.isComparable (whole : column.IsWhole) : column.IsComparable := by
  intro double kept
  rw [whole.2 double] at kept
  cases kept

end Column

-----------------------------------------------------------------------------------------
-- Two and three records
-----------------------------------------------------------------------------------------

/-- Whether all columns of an entity compute with whole numbers only, and replace doubles. -/
def Entity.IsWhole (entity : Entity) : Prop :=
  ∀ column ∈ entity.columns, column.IsWhole

instance (entity : Entity) : Decidable entity.IsWhole :=
  inferInstanceAs (Decidable (∀ column ∈ entity.columns, column.IsWhole))

theorem Entity.IsWhole.isMergeable {entity : Entity} (whole : entity.IsWhole)
    : entity.IsMergeable :=
  fun column member => (whole column member).isMergeable

theorem Entity.IsWhole.isComparable {entity : Entity} (whole : entity.IsWhole)
    : entity.IsComparable :=
  fun column member => (whole column member).isComparable

namespace Record

variable {entity : Entity} {mode : MergeMode} {first second third merged result : Record entity}

/-- Whether a mode accepts two records: strict merging wants unmerged columns to be equal. -/
def Accepts (mode : MergeMode) (first second : Record entity) : Prop :=
  mode = .strict → ∀ column ∈ entity.columns, column.rule = .nonMerge →
    first.value column = second.value column

theorem accepts_lenient : first.Accepts .lenient second :=
  fun strict => nomatch strict

theorem accepts_strict_iff : first.Accepts .strict second ↔ first.AgreesWith second :=
  forall_prop_of_true rfl

/-- A mode makes of the records that it accepts what lenient merging makes of them. -/
theorem merge_eq_ok_iff_accepts (whole : entity.IsWhole)
    : mode.merge first second = .ok merged
      ↔ first.Accepts mode second ∧ MergeMode.lenient.merge first second = .ok merged := by
  cases mode with
  | lenient => exact ⟨fun merges => ⟨accepts_lenient, merges⟩, fun both => both.2⟩
  | strict =>
      rw [accepts_strict_iff, ← divergence?_eq_none_iff]
      by_cases same : first.id = second.id
      · rw [merge_strict_eq whole.isMergeable whole.isComparable same]
        cases first.divergence? second <;> simp
      · simp [merge_eq, same]

/-- A merge is accepted with a third record if its earlier record is. -/
theorem accepts_merged_left (merges : MergeMode.lenient.merge first second = .ok merged)
    : merged.Accepts mode third ↔ first.Accepts mode third := by
  unfold Accepts
  refine imp_congr_right fun _ => forall₃_congr fun column member kept => ?_
  rw [value_of_nonMerge merges member kept]

theorem accepts_merged_right (merges : MergeMode.lenient.merge second third = .ok merged)
    : first.Accepts mode merged ↔ first.Accepts mode second := by
  unfold Accepts
  refine imp_congr_right fun _ => forall₃_congr fun column member kept => ?_
  rw [value_of_nonMerge merges member kept]

/-- Three records are accepted from the left if they are from the right. -/
theorem accepts_assoc
    : first.Accepts mode second ∧ first.Accepts mode third
      ↔ second.Accepts mode third ∧ first.Accepts mode second := by
  constructor
  · rintro ⟨before, across⟩
    refine ⟨fun strict column member kept => ?_, before⟩
    exact (before strict column member kept).symm.trans (across strict column member kept)
  · rintro ⟨after, before⟩
    refine ⟨before, fun strict column member kept => ?_⟩
    exact (before strict column member kept).trans (after strict column member kept)

/-- Three records of one identity merge leniently to one result, whichever merge comes first. -/
theorem exists_merge_lenient_assoc (whole : entity.IsWhole) (before : first.id = second.id)
    (after : second.id = third.id)
    : ∃ left right result, MergeMode.lenient.merge first second = .ok left
        ∧ MergeMode.lenient.merge left third = .ok result
        ∧ MergeMode.lenient.merge second third = .ok right
        ∧ MergeMode.lenient.merge first right = .ok result := by
  obtain ⟨left, firstLeft, leftId, leftValues⟩ := merge_lenient whole.isMergeable before
  obtain ⟨right, firstRight, rightId, rightValues⟩ := merge_lenient whole.isMergeable after
  obtain ⟨result, thenLeft, _, values⟩ :=
    merge_lenient whole.isMergeable (leftId.trans (before.trans after))
  obtain ⟨other, thenRight, _, others⟩ :=
    merge_lenient whole.isMergeable (before.trans rightId.symm)
  have same : other = result := by
    refine ext_value fun column member => ?_
    rw [others column member, values column member, leftValues column member,
      rightValues column member]
    have exact := whole column member
    exact (Column.combine_assoc exact.isMergeable exact.isExact (first.type_value member)
      (second.type_value member) (third.type_value member)).symm
  exact ⟨left, right, result, firstLeft, thenLeft, firstRight, same ▸ thenRight⟩

/-- What a mode makes of three records from the left, given what lenient merging makes of them. -/
theorem merge_left_eq_ok_iff (whole : entity.IsWhole) {left total : Record entity}
    (inner : MergeMode.lenient.merge first second = .ok left)
    (outer : MergeMode.lenient.merge left third = .ok total)
    : (mode.merge first second >>= (mode.merge · third)) = .ok result
      ↔ (first.Accepts mode second ∧ first.Accepts mode third) ∧ total = result := by
  rw [bind_eq_ok]
  constructor
  · rintro ⟨merged, made, more⟩
    obtain ⟨accepts, same⟩ := (merge_eq_ok_iff_accepts whole).mp made
    cases same.symm.trans inner
    obtain ⟨acceptsThird, same⟩ := (merge_eq_ok_iff_accepts whole).mp more
    cases same.symm.trans outer
    exact ⟨⟨accepts, (accepts_merged_left inner).mp acceptsThird⟩, rfl⟩
  · rintro ⟨⟨accepts, acceptsThird⟩, rfl⟩
    exact ⟨left, (merge_eq_ok_iff_accepts whole).mpr ⟨accepts, inner⟩,
      (merge_eq_ok_iff_accepts whole).mpr ⟨(accepts_merged_left inner).mpr acceptsThird, outer⟩⟩

/-- What a mode makes of three records from the right, given what lenient merging makes of them. -/
theorem merge_right_eq_ok_iff (whole : entity.IsWhole) {right total : Record entity}
    (inner : MergeMode.lenient.merge second third = .ok right)
    (outer : MergeMode.lenient.merge first right = .ok total)
    : (mode.merge second third >>= mode.merge first) = .ok result
      ↔ (second.Accepts mode third ∧ first.Accepts mode second) ∧ total = result := by
  rw [bind_eq_ok]
  constructor
  · rintro ⟨merged, made, more⟩
    obtain ⟨accepts, same⟩ := (merge_eq_ok_iff_accepts whole).mp made
    cases same.symm.trans inner
    obtain ⟨acceptsRight, same⟩ := (merge_eq_ok_iff_accepts whole).mp more
    cases same.symm.trans outer
    exact ⟨⟨accepts, (accepts_merged_right inner).mp acceptsRight⟩, rfl⟩
  · rintro ⟨⟨accepts, acceptsSecond⟩, rfl⟩
    exact ⟨right, (merge_eq_ok_iff_accepts whole).mpr ⟨accepts, inner⟩,
      (merge_eq_ok_iff_accepts whole).mpr ⟨(accepts_merged_right inner).mpr acceptsSecond, outer⟩⟩

/-- Merging three records of one identity does not depend on which merge comes first. -/
theorem merge_assoc (whole : entity.IsWhole) (mode : MergeMode) (before : first.id = second.id)
    (after : second.id = third.id)
    : (mode.merge first second >>= (mode.merge · third)) = .ok result
      ↔ (mode.merge second third >>= mode.merge first) = .ok result := by
  obtain ⟨left, right, total, firstLeft, thenLeft, firstRight, thenRight⟩ :=
    exists_merge_lenient_assoc whole before after
  rw [merge_left_eq_ok_iff whole firstLeft thenLeft,
    merge_right_eq_ok_iff whole firstRight thenRight, accepts_assoc]

-----------------------------------------------------------------------------------------
-- Folds
-----------------------------------------------------------------------------------------

/-- Merging some records into one keeps its identity, by induction over the records. -/
theorem id_of_foldlM {rest : List (Record entity)}
    (folds : rest.foldlM mode.merge first = .ok result)
    : result.id = first.id := by
  induction rest generalizing first with
  | nil => cases folds; rfl
  | cons next others ih =>
      obtain ⟨merged, merges, more⟩ := bind_eq_ok.mp folds
      exact (ih more).trans (id_of_merge merges)

/-- Merging records into a merged one merges them into its later part first, by induction over the
records.
-/
theorem foldlM_merge_assoc (whole : entity.IsWhole) (mode : MergeMode)
    {rest : List (Record entity)} (before : first.id = second.id)
    (same : ∀ record ∈ rest, record.id = second.id)
    : (mode.merge first second >>= (rest.foldlM mode.merge ·)) = .ok result
      ↔ (rest.foldlM mode.merge second >>= mode.merge first) = .ok result := by
  induction rest generalizing first second result with
  | nil => simp only [List.foldlM_nil, bind_pure, pure_bind]
  | cons next others ih =>
      have here : second.id = next.id := (same next List.mem_cons_self).symm
      have later : ∀ record ∈ others, record.id = next.id := fun record member =>
        (same record (List.mem_cons_of_mem _ member)).trans here
      simp only [List.foldlM_cons, bind_eq_ok] at *
      -- The hypothesis serves twice: it moves the others behind the merge of the next record, first
      -- with the merged records before it and then with the second record alone.
      constructor
      · rintro ⟨merged, merges, folds⟩
        have mergedId : merged.id = next.id := (id_of_merge merges).trans (before.trans here)
        obtain ⟨total, folded, outer⟩ := (ih mergedId later).mp folds
        have totalId := here.trans (id_of_foldlM folded).symm
        obtain ⟨inner, made, more⟩ := bind_eq_ok.mp
          ((merge_assoc whole mode before totalId).mp (bind_eq_ok.mpr ⟨merged, merges, outer⟩))
        exact ⟨inner, (ih here later).mpr ⟨total, folded, made⟩, more⟩
      · rintro ⟨inner, made, more⟩
        obtain ⟨total, folded, outer⟩ := (ih here later).mp made
        have totalId := here.trans (id_of_foldlM folded).symm
        obtain ⟨merged, merges, last⟩ := bind_eq_ok.mp
          ((merge_assoc whole mode before totalId).mpr (bind_eq_ok.mpr ⟨inner, outer, more⟩))
        have mergedId : merged.id = next.id := (id_of_merge merges).trans (before.trans here)
        exact ⟨merged, merges, (ih mergedId later).mpr ⟨total, folded, last⟩⟩

/-- Two sequences of records of one identity fold into what their folds merge into. -/
theorem fold_append_eq_ok_iff (whole : entity.IsWhole) (mode : MergeMode) {identity : String}
    {earlier later : List (Record entity)} (someEarlier : earlier ≠ []) (someLater : later ≠ [])
    (all : ∀ record ∈ earlier ++ later, record.id = identity) {outcome : Option (Record entity)}
    : mode.fold (earlier ++ later) = .ok outcome
      ↔ ∃ first second total, mode.fold earlier = .ok (some first)
        ∧ mode.fold later = .ok (some second) ∧ mode.merge first second = .ok total
        ∧ outcome = some total := by
  obtain ⟨e, earlier, rfl⟩ := List.exists_cons_of_ne_nil someEarlier
  obtain ⟨l, later, rfl⟩ := List.exists_cons_of_ne_nil someLater
  have headId : e.id = identity := all e (by simp)
  have nextId : l.id = identity := all l (by simp)
  have same : ∀ record ∈ later, record.id = l.id := fun record member =>
    (all record (by simp [member])).trans nextId.symm
  have moved {first total : Record entity} (folded : earlier.foldlM mode.merge e = .ok first)
      : (mode.merge first l >>= (later.foldlM mode.merge ·)) = .ok total
        ↔ (later.foldlM mode.merge l >>= mode.merge first) = .ok total :=
    foldlM_merge_assoc whole mode ((id_of_foldlM folded).trans (headId.trans nextId.symm)) same
  simp only [MergeMode.fold, List.cons_append, List.foldlM_append, List.foldlM_cons, map_eq_ok,
    bind_eq_ok, Option.some.injEq, exists_eq_right] at moved ⊢
  constructor
  · rintro ⟨total, ⟨first, folded, merges⟩, rfl⟩
    obtain ⟨second, folds, last⟩ := (moved folded).mp merges
    exact ⟨first, second, total, folded, folds, last, rfl⟩
  · rintro ⟨first, second, total, folded, folds, last, rfl⟩
    exact ⟨total, ⟨first, folded, (moved folded).mpr ⟨second, folds, last⟩⟩, rfl⟩

-----------------------------------------------------------------------------------------
-- Regrouping
-----------------------------------------------------------------------------------------

/-- Merges of records that compute with whole numbers only can be regrouped in both modes. Lenient
merges of one identity always succeed; strict ones succeed in one grouping if they do in another.
-/
theorem merges_regroup (whole : entity.IsWhole) (mode : MergeMode)
    : (∀ first second third : Record entity, first.id = second.id → second.id = third.id →
        (∀ result, (mode.merge first second >>= (mode.merge · third)) = .ok result
          ↔ (mode.merge second third >>= mode.merge first) = .ok result)
        ∧ (mode = .lenient →
          ∃ result, (mode.merge first second >>= (mode.merge · third)) = .ok result))
      ∧ ∀ (identity : String) (earlier later : List (Record entity)), earlier ≠ [] → later ≠ [] →
        (∀ record ∈ earlier ++ later, record.id = identity) →
        ∀ outcome, mode.fold (earlier ++ later) = .ok outcome
          ↔ ∃ first second total, mode.fold earlier = .ok (some first)
            ∧ mode.fold later = .ok (some second) ∧ mode.merge first second = .ok total
            ∧ outcome = some total := by
  refine ⟨fun first second third before after => ⟨fun result => ?_, ?_⟩, ?_⟩
  · exact merge_assoc whole mode before after
  · rintro rfl
    obtain ⟨left, _, result, inner, outer, _⟩ := exists_merge_lenient_assoc whole before after
    exact ⟨result, bind_eq_ok.mpr ⟨left, inner, outer⟩⟩
  · intro identity earlier later someEarlier someLater all outcome
    exact fold_append_eq_ok_iff whole mode someEarlier someLater all

/-- Sums wrap around at the bounds of both widths, wherever three records are cut. -/
theorem merges_regroup_at_bounds
    : let calls : Entity := {
        entity := "calls", timeBucket := "time_bucket"
        columns := [⟨"id", .string, .nonMerge⟩, ⟨"time_bucket", .long, .nonMerge⟩,
          ⟨"name", .string, .coverMerge⟩, ⟨"load", .double, .coverMerge⟩,
          ⟨"total", .long, .add⟩, ⟨"errors", .integer, .add⟩, ⟨"slowest", .integer, .max⟩] }
      let record (name : String) (total : Int64) (errors slowest : Int32) : Record calls :=
        ⟨[.string "a", .long 20240106, .string name, .double .zero, .long total, .integer errors,
          .integer slowest], rfl⟩
      let earlier := [record "x" 9223372036854775807 2147483647 5]
      let later := [record "y" 1 1 9, record "z" 2 3 7]
      calls.IsWhole
      ∧ MergeMode.strict.fold (earlier ++ later)
          = .ok (some (record "z" (-9223372036854775806) (-2147483645) 9))
      ∧ MergeMode.strict.fold later = .ok (some (record "z" 3 4 9)) := by
  intro calls record earlier later
  have whole : calls.IsWhole := by decide
  refine ⟨whole, ?_, by with_unfolding_all rfl⟩
  have all : ∀ one ∈ earlier ++ later, one.id = "a" := by
    with_unfolding_all decide
  have regroup := (merges_regroup whole .strict).2 "a" earlier later (List.cons_ne_nil _ _)
    (List.cons_ne_nil _ _) all
  refine (regroup _).mpr ?_
  exact ⟨record "x" 9223372036854775807 2147483647 5, record "z" 3 4 9,
    record "z" (-9223372036854775806) (-2147483645) 9, rfl, by with_unfolding_all rfl,
    by with_unfolding_all rfl, rfl⟩

end Record

end Telemetry
