import Telemetry.Proofs.Records.AssociativeMerge

/-! Records that strict merging refuses. Among columns that compute with whole numbers only and
replace doubles, nothing but a difference between unmerged values makes a merge fail, and the error
says between which.
-/

namespace Telemetry.Record

variable {entity : Entity} {mode : MergeMode} {existing incoming : Record entity}

/-- A merge of one identity fails for an unmerged column in which the records differ. -/
theorem merge_eq_error (whole : entity.IsWhole) (same : existing.id = incoming.id) {error : Error}
    (h : mode.merge existing incoming = .error error)
    : mode = .strict ∧ ∃ column ∈ entity.columns, column.rule = .nonMerge
      ∧ existing.value column ≠ incoming.value column
      ∧ error = .invariantViolation (.diverged entity.entity column.name existing.id
          (existing.value column) (incoming.value column)) := by
  obtain ⟨merged, merges, _⟩ := merge_lenient whole.isMergeable same
  cases mode with
  | lenient =>
      rw [merges] at h
      cases h
  | strict =>
      rw [merge_strict_eq whole.isMergeable whole.isComparable same] at h
      cases found : existing.divergence? incoming with
      | none =>
          rw [found, merges] at h
          cases h
      | some column =>
          obtain ⟨_, _, columns, rule, differ, _⟩ := exists_of_divergence? found
          rw [found] at h
          cases h
          exact ⟨rfl, column, columns ▸ List.mem_append_right _ List.mem_cons_self, rule, differ,
            rfl⟩

/-- Strict merging refuses records that differ in an unmerged column, and names such a one. -/
theorem merge_strict_of_differ (whole : entity.IsWhole) (same : existing.id = incoming.id)
    {column : Column} (member : column ∈ entity.columns) (rule : column.rule = .nonMerge)
    (differ : existing.value column ≠ incoming.value column)
    : ∃ column ∈ entity.columns, column.rule = .nonMerge
      ∧ existing.value column ≠ incoming.value column
      ∧ MergeMode.strict.merge existing incoming
        = .error (.invariantViolation (.diverged entity.entity column.name existing.id
            (existing.value column) (incoming.value column))) := by
  cases merges : MergeMode.strict.merge existing incoming with
  | ok merged =>
      have accepts := ((merge_eq_ok_iff_accepts whole).mp merges).1
      exact absurd (accepts rfl column member rule) differ
  | error error =>
      obtain ⟨_, column, member, rule, differ, rfl⟩ := merge_eq_error whole same merges
      exact ⟨column, member, rule, differ, rfl⟩

/-- Records that fold strictly have the unmerged values of their fold, by induction over them. -/
theorem value_of_fold_strict (whole : entity.IsWhole) {records : List (Record entity)}
    {total : Record entity} (folds : MergeMode.strict.fold records = .ok (some total))
    {column : Column} (member : column ∈ entity.columns) (rule : column.rule = .nonMerge)
    : ∀ record ∈ records, record.value column = total.value column := by
  cases records with
  | nil => cases folds
  | cons first rest =>
      induction rest generalizing first with
      | nil =>
          cases folds
          exact fun record here => congrArg (·.value column) (List.mem_singleton.mp here)
      | cons next others ih =>
          obtain ⟨_, folds, made⟩ := map_eq_ok.mp folds
          cases made
          obtain ⟨merged, merges, folds⟩ := bind_eq_ok.mp (List.foldlM_cons.symm.trans folds)
          have kept := value_of_nonMerge merges member rule
          have accepted := ((merge_eq_ok_iff_accepts whole).mp merges).1 rfl column member rule
          have later := ih merged (map_eq_ok.mpr ⟨_, folds, rfl⟩)
          have here : first.value column = total.value column :=
            kept.symm.trans (later merged List.mem_cons_self)
          intro record among
          rcases List.mem_cons.mp among with rfl | among
          · exact here
          · rcases List.mem_cons.mp among with rfl | among
            · exact accepted.symm.trans here
            · exact later record (List.mem_cons_of_mem _ among)

end Telemetry.Record
