/-! Computations that succeed, taken apart into their parts. -/

namespace Telemetry

variable {ε α β : Type}

/-- A sequence of two computations succeeds exactly if both do. -/
theorem bind_eq_ok {first : Except ε α} {second : α → Except ε β} {result : β}
    : first >>= second = .ok result ↔ ∃ value, first = .ok value ∧ second value = .ok result := by
  cases first with
  | error error => simp [bind, Except.bind]
  | ok value => simp [bind, Except.bind]

/-- The mapped result of a computation is the image of a result. -/
theorem map_eq_ok {computation : Except ε α} {f : α → β} {result : β}
    : computation.map f = .ok result ↔ ∃ value, computation = .ok value ∧ f value = result := by
  cases computation with
  | error error => simp [Except.map]
  | ok value => simp [Except.map]

theorem ok_of_toOption {computation : Except ε α} {result : α}
    (h : computation.toOption = some result)
    : computation = .ok result := by
  cases computation with
  | error error => cases h
  | ok value => cases h; rfl

theorem exists_of_isOk {computation : Except ε α} (h : computation.isOk = true)
    : ∃ result, computation = .ok result := by
  cases computation with
  | error error => cases h
  | ok value => exact ⟨value, rfl⟩

/-- A sequence of two computations fails as the first one does, or else as the second one. -/
theorem bind_eq_error {first : Except ε α} {second : α → Except ε β} {error : ε}
    : first >>= second = .error error
      ↔ first = .error error ∨ ∃ value, first = .ok value ∧ second value = .error error := by
  cases first with
  | error other => simp [bind, Except.bind]
  | ok value => simp [bind, Except.bind]

/-- A computation over the items of a list succeeds exactly if it does for each of them. -/
theorem forM_eq_ok {action : α → Except ε Unit} {items : List α}
    : items.forM action = .ok () ↔ ∀ item ∈ items, action item = .ok () := by
  induction items with
  | nil => simp [pure, Except.pure]
  | cons item rest ih =>
      rw [List.forall_mem_cons, ← ih]
      constructor
      · intro h
        obtain ⟨_, first, later⟩ := bind_eq_ok.mp h
        exact ⟨first, later⟩
      · rintro ⟨first, later⟩
        exact bind_eq_ok.mpr ⟨(), first, later⟩

/-- A computation over the items of a list fails as it does for one of them. -/
theorem exists_mem_of_forM {action : α → Except ε Unit} {items : List α} {error : ε}
    (h : items.forM action = .error error)
    : ∃ item ∈ items, action item = .error error := by
  induction items with
  | nil => cases h
  | cons item rest ih =>
      rcases bind_eq_error.mp h with fails | ⟨_, _, later⟩
      · exact ⟨item, List.mem_cons_self, fails⟩
      · obtain ⟨other, member, fails⟩ := ih later
        exact ⟨other, List.mem_cons_of_mem _ member, fails⟩

/-- A fold over a repeated item that leaves the state as it is leaves it so. -/
theorem foldlM_replicate {f : β → α → Except ε β} {item : α} {state : β}
    (h : f state item = .ok state) (count : Nat)
    : (List.replicate count item).foldlM f state = .ok state := by
  induction count with
  | zero => rfl
  | succ count ih => rwa [List.replicate_succ, List.foldlM_cons, h]

end Telemetry
