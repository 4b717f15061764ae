import Telemetry.Proofs.Records.LenientFolds

/-! Strict merging as lenient merging that stops at a divergence. Two records that differ in an
unmerged column are refused with an error that names the first such column, and all others are
merged as in lenient mode, every column by its own two values.
-/

namespace Telemetry

-----------------------------------------------------------------------------------------
-- One column
-----------------------------------------------------------------------------------------

namespace Column

/-- Whether unmerged values of a column agree exactly if they are equal, unlike doubles. -/
def IsComparable (column : Column) : Prop :=
  column.type = .double → column.rule ≠ .nonMerge

instance : DecidablePred IsComparable :=
  fun column => inferInstanceAs (Decidable (_ → column.rule ≠ .nonMerge))

/-- Whether two values of an unmerged column differ. -/
def Diverges (column : Column) (earlier later : ColumnValue) : Prop :=
  column.rule = .nonMerge ∧ earlier ≠ later

instance (column : Column) (earlier later : ColumnValue)
    : Decidable (column.Diverges earlier later) :=
  inferInstanceAs (Decidable (_ ∧ _))

variable {column : Column} {earlier later merged : ColumnValue} {entity id : String}

theorem IsComparable.agrees_iff (comparable : column.IsComparable)
    (kept : column.rule = .nonMerge) (typed : earlier.type = column.type)
    : earlier.agrees later = true ↔ earlier = later := by
  cases earlier with
  | double number => exact absurd kept (comparable typed.symm)
  | string _ | long _ | integer _ | byte _ => cases later <;> simp [ColumnValue.agrees]

/-- Strict merging of a column refuses values that diverge, and merges all others leniently. -/
theorem mergeValue_strict (comparable : column.IsComparable) (entity id : String)
    (typed : earlier.type = column.type)
    : MergeMode.strict.mergeValue entity id column earlier later
      = if column.Diverges earlier later then
          .error (.invariantViolation (.diverged entity column.name id earlier later))
        else MergeMode.lenient.mergeValue entity id column earlier later := by
  unfold MergeMode.mergeValue
  cases rule : column.rule with
  | nonMerge =>
      have agrees : earlier.agrees later = true ↔ earlier = later :=
        comparable.agrees_iff rule typed
      cases same : earlier.agrees later with
      | true => simp [Diverges, agrees.mp same]
      | false =>
          have differ : earlier ≠ later := fun eq => by simp [agrees.mpr eq] at same
          simp [Diverges, rule, differ]
  | coverMerge | add | max | min => simp [Diverges, rule]

/-- Whatever the mode is, a column that is merged combines its two values. -/
theorem eq_combine_of_mergeValue {mode : MergeMode}
    (h : mode.mergeValue entity id column earlier later = .ok merged)
    : merged = column.combine earlier later := by
  unfold MergeMode.mergeValue at h
  unfold combine
  cases rule : column.rule with
  | nonMerge =>
      simp only [rule] at h
      split at h
      · cases h
      · exact (Except.ok.inj h).symm
  | coverMerge =>
      simp only [rule] at h
      exact (Except.ok.inj h).symm
  | add | max | min =>
      simp only [rule] at h ⊢
      split at h
      next computed => rw [computed, Option.getD_some, Except.ok.inj h]
      · cases h

end Column

-----------------------------------------------------------------------------------------
-- Whole records
-----------------------------------------------------------------------------------------

/-- Whether unmerged values of an entity agree exactly if they are equal. -/
def Entity.IsComparable (entity : Entity) : Prop :=
  ∀ column ∈ entity.columns, column.IsComparable

instance (entity : Entity) : Decidable entity.IsComparable :=
  inferInstanceAs (Decidable (∀ column ∈ entity.columns, column.IsComparable))

namespace Record

variable {entity : Entity} {mode : MergeMode} {first second merged : Record entity}

/-- Whether two records have the same values in the columns that are not merged. -/
def AgreesWith (first second : Record entity) : Prop :=
  ∀ column ∈ entity.columns, column.rule = .nonMerge → first.value column = second.value column

/-- The first unmerged column in which two records differ, in the order of the schema. -/
def divergence? (first second : Record entity) : Option Column :=
  entity.columns.find? fun column => column.Diverges (first.value column) (second.value column)

theorem divergence?_eq_none_iff : first.divergence? second = none ↔ first.AgreesWith second := by
  simp only [divergence?, List.find?_eq_none, decide_eq_true_eq]
  simp only [AgreesWith, Column.Diverges, not_and, not_not]

/-- The first divergence is an unmerged column in which the records differ, while they agree in the
unmerged columns before it.
-/
theorem exists_of_divergence? {column : Column} (h : first.divergence? second = some column)
    : ∃ before after, entity.columns = before ++ column :: after ∧ column.rule = .nonMerge
      ∧ first.value column ≠ second.value column
      ∧ ∀ other ∈ before, other.rule = .nonMerge → first.value other = second.value other := by
  obtain ⟨diverges, before, after, columns, agree⟩ := List.find?_eq_some_iff_append.mp h
  obtain ⟨rule, differ⟩ := of_decide_eq_true diverges
  refine ⟨before, after, columns, rule, differ, fun other earlier kept => ?_⟩
  by_contra ne
  have agrees := agree other earlier
  simp [Column.Diverges, kept, ne] at agrees

/-- Merging some columns strictly is merging them leniently up to the first divergence among them,
by induction over the columns.
-/
theorem foldlM_mergeColumn_strict (mergeable : entity.IsMergeable)
    (comparable : entity.IsComparable) (first second : Record entity) {columns : List Column}
    (listed : ∀ column ∈ columns, column ∈ entity.columns) (merged : Record entity)
    : columns.foldlM (MergeMode.strict.mergeColumn first second) merged
      = match columns.find? fun column =>
            column.Diverges (first.value column) (second.value column) with
        | none => columns.foldlM (MergeMode.lenient.mergeColumn first second) merged
        | some column => .error (.invariantViolation (.diverged entity.entity column.name first.id
            (first.value column) (second.value column))) := by
  induction columns generalizing merged with
  | nil => rfl
  | cons head rest ih =>
      have member := listed head List.mem_cons_self
      have typed := first.type_value member
      rw [List.foldlM_cons, List.foldlM_cons, mergeColumn_eq _ _ _ member,
        mergeColumn_eq _ _ _ member, Column.mergeValue_strict (comparable head member) _ _ typed,
        List.find?_cons]
      by_cases diverges : head.Diverges (first.value head) (second.value head)
      · simp only [diverges, if_true, decide_true]
        rfl
      · have merges := Column.mergeValue_lenient (mergeable head member) entity.entity first.id
          typed (second.type_value member)
        obtain ⟨next, set, _⟩ := merged.setColumn_eq_ok member
          (Column.type_combine (mergeable head member) typed (second.type_value member))
        have sets : Except.ok (head.combine (first.value head) (second.value head))
            >>= merged.setColumn head.name = .ok next := set
        simp only [diverges, if_false, decide_false, merges, sets]
        exact ih (fun column inRest => listed column (List.mem_cons_of_mem _ inRest)) next

/-- Records of one identity are merged strictly as they are leniently, unless they diverge. -/
theorem merge_strict_eq (mergeable : entity.IsMergeable) (comparable : entity.IsComparable)
    (same : first.id = second.id)
    : MergeMode.strict.merge first second
      = match first.divergence? second with
        | none => MergeMode.lenient.merge first second
        | some column => .error (.invariantViolation (.diverged entity.entity column.name first.id
            (first.value column) (second.value column))) := by
  rw [merge_eq, merge_eq, if_pos same, if_pos same]
  exact foldlM_mergeColumn_strict mergeable comparable first second (fun _ member => member) first

/-- Every column of a merged record depends on the two values of that column alone. -/
theorem value_of_merge (merges : mode.merge first second = .ok merged) {column : Column}
    (member : column ∈ entity.columns)
    : merged.value column = column.combine (first.value column) (second.value column) :=
  Column.eq_combine_of_mergeValue ((merge_eq_ok_iff.mp merges).2 column member)

/-- Records of different identities are merged in neither mode. Records of one identity always merge
leniently, and strictly exactly if they agree in the columns that are not merged, with the same
result; otherwise the error names the first of these columns in which they differ. A merged record
has the identity of both records, and each of its columns combines their values in that column.
-/
theorem strict_merge_refines_lenient (mergeable : entity.IsMergeable)
    (comparable : entity.IsComparable) (first second : Record entity)
    : (first.id ≠ second.id → ∀ mode : MergeMode, mode.merge first second
          = .error (.invariantViolation (.differentIds entity.entity first.id second.id)))
      ∧ (first.id = second.id → ∃ merged, MergeMode.lenient.merge first second = .ok merged
          ∧ (∀ result, MergeMode.strict.merge first second = .ok result
              ↔ first.AgreesWith second ∧ result = merged)
          ∧ (¬first.AgreesWith second → ∃ before column after,
              entity.columns = before ++ column :: after ∧ column.rule = .nonMerge
              ∧ first.value column ≠ second.value column
              ∧ (∀ other ∈ before, other.rule = .nonMerge →
                  first.value other = second.value other)
              ∧ MergeMode.strict.merge first second
                = .error (.invariantViolation (.diverged entity.entity column.name first.id
                    (first.value column) (second.value column)))))
      ∧ ∀ (mode : MergeMode) (merged : Record entity), mode.merge first second = .ok merged →
          merged.id = first.id ∧ merged.id = second.id
          ∧ ∀ column ∈ entity.columns,
              merged.value column = column.combine (first.value column) (second.value column) := by
  refine ⟨fun differ mode => ?_, fun same => ?_, fun mode merged merges => ?_⟩
  · rw [merge_eq, if_neg differ]
  · obtain ⟨merged, merges, _⟩ := merge_lenient mergeable same
    have strict := merge_strict_eq mergeable comparable same
    refine ⟨merged, merges, fun result => ?_, fun disagree => ?_⟩
    · rw [strict, ← divergence?_eq_none_iff]
      cases first.divergence? second with
      | none => simp [merges, eq_comm]
      | some column => simp
    · cases found : first.divergence? second with
      | none => exact absurd (divergence?_eq_none_iff.mp found) disagree
      | some column =>
          obtain ⟨before, after, columns, rule, differ, agree⟩ := exists_of_divergence? found
          rw [found] at strict
          exact ⟨before, column, after, columns, rule, differ, agree, strict⟩
  · have identity := id_of_merge merges
    exact ⟨identity, identity.trans (merge_eq_ok_iff.mp merges).1,
      fun column member => value_of_merge merges member⟩

/-- Two records that differ in their hosts and zones are refused for their hosts, and leniently the
earlier host is kept while the load, a double, is summed up.
-/
theorem strict_merge_refines_lenient_of_two_divergences
    : let calls : Entity := {
        entity := "calls", timeBucket := "time_bucket"
        columns := [⟨"id", .string, .nonMerge⟩, ⟨"time_bucket", .long, .nonMerge⟩,
          ⟨"name", .string, .coverMerge⟩, ⟨"host", .string, .nonMerge⟩, ⟨"load", .double, .add⟩,
          ⟨"zone", .integer, .nonMerge⟩, ⟨"slowest", .integer, .max⟩] }
      let record (name host : String) (load : Double) (zone slowest : Int32) : Record calls :=
        ⟨[.string "a", .long 20240106, .string name, .string host, .double load, .integer zone,
          .integer slowest], rfl⟩
      let earlier := record "x" "h" .zero 1 9
      let later := record "y" "i" ⟨0x3fe0000000000000⟩ 2 5
      calls.IsMergeable ∧ calls.IsComparable ∧ earlier.id = later.id
      ∧ ¬earlier.AgreesWith later
      ∧ (∃ column ∈ calls.columns, column.rule = .nonMerge
          ∧ earlier.value column ≠ later.value column
          ∧ MergeMode.strict.merge earlier later = .error (.invariantViolation (.diverged "calls"
              column.name "a" (earlier.value column) (later.value column))))
      ∧ MergeMode.strict.merge earlier later
          = .error (.invariantViolation (.diverged "calls" "host" "a" (.string "h") (.string "i")))
      ∧ ∃ merged, MergeMode.lenient.merge earlier later = .ok merged ∧ merged.id = "a"
        ∧ merged.value ⟨"name", .string, .coverMerge⟩ = .string "y"
        ∧ merged.value ⟨"host", .string, .nonMerge⟩ = .string "h"
        ∧ merged.value ⟨"slowest", .integer, .max⟩ = .integer 9 := by
  intro calls record earlier later
  have mergeable : calls.IsMergeable := by decide
  have comparable : calls.IsComparable := by decide
  obtain ⟨_, merges, columns⟩ := strict_merge_refines_lenient mergeable comparable earlier later
  obtain ⟨merged, lenient, _, refuses⟩ := merges rfl
  have disagree : ¬earlier.AgreesWith later := by
    intro agree
    have hosts : ColumnValue.string "h" = .string "i" :=
      agree ⟨"host", .string, .nonMerge⟩ (by decide) rfl
    exact absurd hosts (by decide)
  obtain ⟨before, column, after, split, rule, differ, _, refused⟩ := refuses disagree
  obtain ⟨identity, _, values⟩ := columns .lenient merged lenient
  have member : column ∈ calls.columns := split ▸ List.mem_append_right _ List.mem_cons_self
  refine ⟨mergeable, comparable, rfl, disagree, ⟨column, member, rule, differ, refused⟩,
    by with_unfolding_all rfl, merged, lenient, identity, ?_, ?_, ?_⟩
  · exact values ⟨"name", .string, .coverMerge⟩ (by decide)
  · exact values ⟨"host", .string, .nonMerge⟩ (by decide)
  · exact values ⟨"slowest", .integer, .max⟩ (by decide)

end Record

end Telemetry
