import Telemetry.Proofs.Storage.DrainedBatches

/-! What a worker does to the record staged under one id. An ingest binds the id of its record and
no other, so workers that stage the same records under some ids answer alike to records with these
ids, and prepare the same for them.
-/

namespace Telemetry.Storage

open HasPlainForm

variable {R : Type}

-----------------------------------------------------------------------------------------
-- One ingest
-----------------------------------------------------------------------------------------

namespace Worker

/-- The worker with a record staged under an id. -/
def hold (worker : Worker R) (id : String) (record : R) : Worker R :=
  { worker with staged := worker.staged.insert id record }

theorem get?_staged_hold (worker : Worker R) (id other : String) (record : R)
    : (worker.hold id record).staged.get? other
      = if other = id then some record else worker.staged.get? other :=
  KeyMap.get?_insert _ _ _ _

variable [StreamData R] {worker : Worker R} {record : R}

theorem ingest_of_absent (absent : worker.staged.get? (StreamData.id record) = none)
    : worker.ingest record = .ok (.staged, worker.hold (StreamData.id record) record) := by
  simp only [ingest, absent]
  rfl

/-- A record is merged into the one that is staged under its id. -/
theorem ingest_of_staged {earlier : R}
    (staged : worker.staged.get? (StreamData.id record) = some earlier)
    : worker.ingest record = (worker.mode.merge earlier record).map fun merged =>
        (.merged, worker.hold (StreamData.id record) merged) := by
  simp only [ingest, staged]
  cases worker.mode.merge earlier record <;> rfl

/-- An ingest that succeeds binds the id of its record. -/
theorem ingest_eq_ok {what : Ingested} {next : Worker R}
    (ingested : worker.ingest record = .ok (what, next))
    : ∃ total, next = worker.hold (StreamData.id record) total := by
  cases staged : worker.staged.get? (StreamData.id record) with
  | none =>
      cases (ingest_of_absent staged).symm.trans ingested
      exact ⟨record, rfl⟩
  | some earlier =>
      rw [ingest_of_staged staged] at ingested
      obtain ⟨merged, _, made⟩ := map_eq_ok.mp ingested
      cases made
      exact ⟨merged, rfl⟩

end Worker

-----------------------------------------------------------------------------------------
-- Workers that look alike
-----------------------------------------------------------------------------------------

/-- Workers with the same rules that stage the same records under the visible ids. -/
structure Worker.Matches (visible : String → Prop) (first second : Worker R) : Prop where
  descriptor : first.descriptor = second.descriptor
  mode : first.mode = second.mode
  staged (id : String) : visible id → first.staged.get? id = second.staged.get? id

namespace Worker.Matches

variable {visible : String → Prop} {first second third : Worker R}

theorem refl (worker : Worker R) : worker.Matches visible worker :=
  ⟨rfl, rfl, fun _ _ => rfl⟩

theorem trans (h : first.Matches visible second) (more : second.Matches visible third)
    : first.Matches visible third :=
  ⟨h.descriptor.trans more.descriptor, h.mode.trans more.mode,
    fun id seen => (h.staged id seen).trans (more.staged id seen)⟩

theorem cleared (h : first.Matches visible second) : first.cleared.Matches visible second.cleared :=
  ⟨h.descriptor, h.mode, fun _ _ => rfl⟩

theorem hold (h : first.Matches visible second) (id : String) (record : R)
    : (first.hold id record).Matches visible (second.hold id record) := by
  refine ⟨h.descriptor, h.mode, fun other seen => ?_⟩
  rw [get?_staged_hold, get?_staged_hold, h.staged other seen]

/-- What is staged under a hidden id does not show. -/
theorem of_hold_hidden {id : String} (hidden : ¬visible id) (worker : Worker R) (record : R)
    : (worker.hold id record).Matches visible worker := by
  refine ⟨rfl, rfl, fun other seen => ?_⟩
  rw [get?_staged_hold, if_neg fun same : other = id => hidden (same ▸ seen)]

/-- Workers that look alike answer alike to a record with a visible id, and look alike again. -/
theorem ingest [StreamData R] (h : first.Matches visible second) {record : R}
    (seen : visible (StreamData.id record))
    : (∃ error, first.ingest record = .error error ∧ second.ingest record = .error error)
      ∨ ∃ what next other, first.ingest record = .ok (what, next)
          ∧ second.ingest record = .ok (what, other) ∧ next.Matches visible other := by
  have same := h.staged _ seen
  cases staged : first.staged.get? (StreamData.id record) with
  | none =>
      rw [staged] at same
      exact .inr ⟨_, _, _, ingest_of_absent staged, ingest_of_absent same.symm, h.hold _ record⟩
  | some earlier =>
      rw [staged] at same
      rw [ingest_of_staged staged, ingest_of_staged same.symm, ← h.mode]
      cases first.mode.merge earlier record with
      | error error => exact .inl ⟨error, rfl, rfl⟩
      | ok merged => exact .inr ⟨_, _, _, rfl, rfl, h.hold _ merged⟩

/-- Workers that look alike prepare the same for a record whose row is the same. -/
theorem prepare {entity : Entity} {S : Type} [TableStore S] [HasPlainForm S]
    {first second : Worker (Record entity)} (h : first.Matches visible second) {store other : S}
    {record : Record entity}
    (same : stored? store first.descriptor.table record.id
      = stored? other first.descriptor.table record.id)
    : first.prepare store record = second.prepare other record := by
  rw [Worker.prepare_congr same]
  unfold Worker.prepare
  rw [h.descriptor, h.mode]

end Worker.Matches

end Telemetry.Storage
