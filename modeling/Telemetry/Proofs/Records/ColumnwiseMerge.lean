import Telemetry.Merge
import Telemetry.Proofs.Records.RecordColumns
import Telemetry.Proofs.Results

/-! Merging records column by column. The merge of two records succeeds exactly if it does in every
column, and then each column of the result depends on that column alone. Lenient merging with
numbers under the arithmetic rules always succeeds.
-/

namespace Telemetry

-----------------------------------------------------------------------------------------
-- One column
-----------------------------------------------------------------------------------------

namespace MergeMode

variable {mode : MergeMode} {entity id : String} {column : Column}
variable {earlier later merged : ColumnValue}

theorem type_of_arithmetic? {rule : MergeRule} (h : arithmetic? rule earlier later = some merged)
    : merged.type = earlier.type := by
  cases earlier <;> cases later <;> cases h <;> rfl

/-- A merged value is of the type of its column. -/
theorem type_of_mergeValue (first : earlier.type = column.type) (second : later.type = column.type)
    (h : mode.mergeValue entity id column earlier later = .ok merged)
    : merged.type = column.type := by
  unfold mergeValue at h
  split at h
  · split at h
    · cases h
    · cases h; exact first
  · cases h; exact second
  · split at h
    next value computed => cases h; exact (type_of_arithmetic? computed).trans first
    · cases h

/-- Texts that are merged at all stay the earlier one or become the later one. -/
theorem mergeValue_string {text other : String}
    (h : mode.mergeValue entity id column (.string text) (.string other) = .ok merged)
    : merged = .string text ∨ merged = .string other := by
  unfold mergeValue at h
  split at h
  · split at h
    · cases h
    · exact .inl (Except.ok.inj h).symm
  · exact .inr (Except.ok.inj h).symm
  · simp [arithmetic?] at h

end MergeMode

-----------------------------------------------------------------------------------------
-- Whole records
-----------------------------------------------------------------------------------------

namespace Record

variable {entity : Entity} {mode : MergeMode}

theorem readColumn_eq (record : Record entity) {column : Column}
    (member : column ∈ entity.columns)
    : MergeMode.readColumn record column = .ok (record.value column) := by
  have exposed : StreamData.column? record column.name = some (record.value column) :=
    record.column?_eq_value member
  simp only [MergeMode.readColumn, exposed, record.type_value member, if_true]

/-- Merging one column merges its values and sets the result. -/
theorem mergeColumn_eq (existing incoming merged : Record entity) {column : Column}
    (member : column ∈ entity.columns)
    : mode.mergeColumn existing incoming merged column
      = mode.mergeValue entity.entity existing.id column (existing.value column)
          (incoming.value column) >>= merged.setColumn column.name := by
  unfold MergeMode.mergeColumn
  rw [existing.readColumn_eq member, incoming.readColumn_eq member]
  rfl

/-- Merging one column sets it to the merged value. -/
theorem mergeColumn_eq_ok_iff (existing incoming merged next : Record entity) {column : Column}
    (member : column ∈ entity.columns)
    : mode.mergeColumn existing incoming merged column = .ok next
      ↔ mode.mergeValue entity.entity existing.id column (existing.value column)
            (incoming.value column) = .ok (next.value column)
        ∧ ∀ other ∈ entity.columns, other ≠ column → next.value other = merged.value other := by
  rw [mergeColumn_eq existing incoming merged member, bind_eq_ok]
  constructor
  · rintro ⟨new, computed, set⟩
    have typed := MergeMode.type_of_mergeValue (existing.type_value member)
      (incoming.type_value member) computed
    obtain ⟨changed, same, here, elsewhere⟩ := merged.setColumn_eq_ok member typed
    cases same.symm.trans set
    exact ⟨here ▸ computed, elsewhere⟩
  · rintro ⟨computed, elsewhere⟩
    have typed := MergeMode.type_of_mergeValue (existing.type_value member)
      (incoming.type_value member) computed
    obtain ⟨changed, same, here, unchanged⟩ := merged.setColumn_eq_ok member typed
    refine ⟨next.value column, computed, same.trans (congrArg Except.ok ?_)⟩
    refine ext_value fun other inEntity => ?_
    by_cases eq : other = column
    · rw [eq, here]
    · rw [unchanged other inEntity eq, elsewhere other inEntity eq]

/-- Merging some columns one after the other sets these and leaves the others, by induction over
the columns.
-/
theorem foldlM_mergeColumn_eq_ok_iff (existing incoming : Record entity) {columns : List Column}
    (distinct : columns.Nodup) (listed : ∀ column ∈ columns, column ∈ entity.columns)
    (merged result : Record entity)
    : columns.foldlM (mode.mergeColumn existing incoming) merged = .ok result
      ↔ (∀ column ∈ columns, mode.mergeValue entity.entity existing.id column
            (existing.value column) (incoming.value column) = .ok (result.value column))
        ∧ ∀ column ∈ entity.columns, column ∉ columns →
            result.value column = merged.value column := by
  induction columns generalizing merged with
  | nil =>
      constructor
      · intro done
        cases done
        exact ⟨fun _ member => absurd member List.not_mem_nil, fun _ _ _ => rfl⟩
      · rintro ⟨_, unchanged⟩
        refine congrArg Except.ok (ext_value fun column member => ?_)
        exact (unchanged column member List.not_mem_nil).symm
  | cons head rest ih =>
      obtain ⟨fresh, later⟩ := List.nodup_cons.mp distinct
      have inEntity := listed head List.mem_cons_self
      have others : ∀ column ∈ rest, column ∈ entity.columns :=
        fun column member => listed column (List.mem_cons_of_mem _ member)
      rw [List.foldlM_cons, bind_eq_ok]
      constructor
      · rintro ⟨next, first, more⟩
        obtain ⟨here, elsewhere⟩ := (mergeColumn_eq_ok_iff _ _ _ _ inEntity).mp first
        obtain ⟨merges, unchanged⟩ := (ih later others next).mp more
        constructor
        · intro column member
          rcases List.mem_cons.mp member with rfl | member
          · rw [unchanged column inEntity fresh]
            exact here
          · exact merges column member
        · intro column member absent
          rw [List.mem_cons, not_or] at absent
          rw [unchanged column member absent.2, elsewhere column member absent.1]
      · rintro ⟨merges, unchanged⟩
        have computed := merges head List.mem_cons_self
        have typed := MergeMode.type_of_mergeValue (existing.type_value inEntity)
          (incoming.type_value inEntity) computed
        obtain ⟨next, _, here, elsewhere⟩ := merged.setColumn_eq_ok inEntity typed
        refine ⟨next, (mergeColumn_eq_ok_iff _ _ _ _ inEntity).mpr ⟨here ▸ computed, elsewhere⟩,
          (ih later others next).mpr ⟨?_, ?_⟩⟩
        · exact fun column member => merges column (List.mem_cons_of_mem _ member)
        · intro column member absent
          by_cases eq : column = head
          · rw [eq, here]
          · rw [elsewhere column member eq]
            exact unchanged column member (by simp [eq, absent])

/-- Only records of one identity are merged, and these one column after the other. -/
theorem merge_eq (mode : MergeMode) (existing incoming : Record entity)
    : mode.merge existing incoming
      = if existing.id = incoming.id then
          entity.columns.foldlM (mode.mergeColumn existing incoming) existing
        else .error (.invariantViolation (.differentIds entity.entity existing.id incoming.id)) :=
  rfl

/-- Records of one identity are merged column by column. -/
theorem merge_eq_ok_iff {existing incoming result : Record entity}
    : mode.merge existing incoming = .ok result
      ↔ existing.id = incoming.id
        ∧ ∀ column ∈ entity.columns, mode.mergeValue entity.entity existing.id column
            (existing.value column) (incoming.value column) = .ok (result.value column) := by
  have all := @foldlM_mergeColumn_eq_ok_iff entity mode existing incoming entity.columns
    (List.Nodup.of_map _ entity.distinct) (fun _ member => member) existing result
  rw [merge_eq]
  split
  next same =>
    rw [all]
    simp only [same, true_and]
    exact and_iff_left fun column member absent => absurd member absent
  next differ => simp [differ]

/-- An unmerged column of a merged record is that of the earlier one. -/
theorem value_of_nonMerge {existing incoming result : Record entity}
    (h : mode.merge existing incoming = .ok result) {column : Column}
    (member : column ∈ entity.columns) (kept : column.rule = .nonMerge)
    : result.value column = existing.value column := by
  have merges := (merge_eq_ok_iff.mp h).2 column member
  simp only [MergeMode.mergeValue, kept] at merges
  split at merges
  · cases merges
  · exact (Except.ok.inj merges).symm

/-- A covered column of a merged record is that of the later one. -/
theorem value_of_coverMerge {existing incoming result : Record entity}
    (h : mode.merge existing incoming = .ok result) {column : Column}
    (member : column ∈ entity.columns) (covered : column.rule = .coverMerge)
    : result.value column = incoming.value column := by
  have merges := (merge_eq_ok_iff.mp h).2 column member
  simp only [MergeMode.mergeValue, covered] at merges
  exact (Except.ok.inj merges).symm

/-- A merged record has the identity of both. -/
theorem id_of_merge {existing incoming result : Record entity}
    (h : mode.merge existing incoming = .ok result)
    : result.id = existing.id := by
  obtain ⟨same, merges⟩ := merge_eq_ok_iff.mp h
  obtain ⟨column, member, named, text⟩ := exists_idColumn entity
  have merged := merges column member
  rw [existing.value_idColumn member named text, incoming.value_idColumn member named text,
    result.value_idColumn member named text] at merged
  rcases MergeMode.mergeValue_string merged with kept | replaced
  · exact ColumnValue.string.inj kept
  · exact (ColumnValue.string.inj replaced).trans same.symm

end Record

end Telemetry
