import Telemetry.Proofs.Storage.BatchOutcomes

/-! Rows that differ in one place. What is in that place shows elsewhere only by whether it can be
read, since a row that cannot be read fails whole batches and deletions. A batch that brings nothing
unreadable to the place fails for both rows or for neither, and leaves them alike.
-/

namespace Telemetry.Storage

-----------------------------------------------------------------------------------------
-- One place
-----------------------------------------------------------------------------------------

/-- Whether what is in a place of a store of a kind is a row that can be read again, if it is one
that can be read.
-/
def BackendKind.FitsRow (kind : BackendKind) (row : Option Row) : Prop :=
  ∀ document, row = some (some document) → kind.Fits document

namespace Operation

variable {kind : BackendKind} {operation : Operation} {row other : Option Row}

theorem isStuck_congr (same : row = some none ↔ other = some none)
    : operation.isStuck row = operation.isStuck other := by
  rcases row with _ | _ | document <;> rcases other with _ | _ | another <;>
    simp_all [isStuck]

/-- An operation that brings a readable document makes no row unreadable, and none readable. -/
theorem after_of_fits (fits : kind.Fits operation.document) (held : kind.FitsRow row)
    : kind.FitsRow (operation.after kind.row row)
      ∧ (operation.after kind.row row = some none ↔ row = some none) := by
  have renewed {document : Document} (fit : kind.Fits document)
      : kind.FitsRow (some (kind.row document)) ∧ some (kind.row document) ≠ some none := by
    rw [BackendKind.row_of_fits fit]
    exact ⟨fun _ same => by cases same; exact fit.kept, by simp⟩
  unfold after written
  rcases row with _ | _ | document <;> cases operation.kind
  · exact ⟨(renewed fits).1, iff_of_false (renewed fits).2 (by simp)⟩
  · exact ⟨held, Iff.rfl⟩
  · exact ⟨held, Iff.rfl⟩
  · exact ⟨held, Iff.rfl⟩
  · exact ⟨held, Iff.rfl⟩
  · have both := renewed ((held document rfl).overwrite fits)
    exact ⟨both.1, iff_of_false both.2 (by simp)⟩

end Operation

-----------------------------------------------------------------------------------------
-- Rows that differ in one place
-----------------------------------------------------------------------------------------

/-- Whether rows under a namespace differ in one place at most, and there either both or neither
can be read.
-/
structure Rows.Matches (space : Namespace) (hidden : String × String) (first second : Rows)
    : Prop where
  visible (table id : String) : (table, id) ≠ hidden →
    (first (space.qualify table)).get? id = (second (space.qualify table)).get? id
  unreadable : (first (space.qualify hidden.1)).get? hidden.2 = some none
    ↔ (second (space.qualify hidden.1)).get? hidden.2 = some none

namespace Rows.Matches

variable {space : Namespace} {hidden : String × String} {first second third : Rows}

theorem refl (rows : Rows) : rows.Matches space hidden rows :=
  ⟨fun _ _ _ => rfl, Iff.rfl⟩

theorem trans (h : first.Matches space hidden second) (more : second.Matches space hidden third)
    : first.Matches space hidden third :=
  ⟨fun table id seen => (h.visible table id seen).trans (more.visible table id seen),
    h.unreadable.trans more.unreadable⟩

/-- In every place both rows can be read or neither. -/
theorem get?_eq_some_none_iff (h : first.Matches space hidden second) (table id : String)
    : (first (space.qualify table)).get? id = some none
      ↔ (second (space.qualify table)).get? id = some none := by
  by_cases here : (table, id) = hidden
  · subst here
    exact h.unreadable
  · rw [h.visible table id here]

theorem isReadable_eq (h : first.Matches space hidden second) (table : String)
    : PlainStore.isReadable (first (space.qualify table))
      = PlainStore.isReadable (second (space.qualify table)) := by
  rw [Bool.eq_iff_iff, PlainStore.isReadable_iff, PlainStore.isReadable_iff]
  exact forall_congr' fun id => not_congr (h.get?_eq_some_none_iff table id)

variable {kind : BackendKind}

/-- An operation that brings nothing unreadable to the hidden place leaves rows alike. -/
theorem apply (h : first.Matches space hidden second) (one two : Outcome) {operation : Operation}
    (held : kind.FitsRow ((first (space.qualify hidden.1)).get? hidden.2))
    (heldToo : kind.FitsRow ((second (space.qualify hidden.1)).get? hidden.2))
    (fits : operation.concerns space (space.qualify hidden.1) hidden.2 = true →
      kind.Fits operation.document)
    : let left := (PlainStore.apply kind space (first, one) operation).1
      let leftToo := (PlainStore.apply kind space (second, two) operation).1
      left.Matches space hidden leftToo
      ∧ kind.FitsRow ((left (space.qualify hidden.1)).get? hidden.2)
      ∧ kind.FitsRow ((leftToo (space.qualify hidden.1)).get? hidden.2) := by
  have visible (table id : String) (seen : (table, id) ≠ hidden)
      : ((PlainStore.apply kind space (first, one) operation).1 (space.qualify table)).get? id
        = ((PlainStore.apply kind space (second, two) operation).1
            (space.qualify table)).get? id := by
    rw [PlainStore.get?_apply, PlainStore.get?_apply, h.visible table id seen]
  intro left leftToo
  have here := PlainStore.get?_apply kind space (first, one) operation
    (space.qualify hidden.1) hidden.2
  have hereToo := PlainStore.get?_apply kind space (second, two) operation
    (space.qualify hidden.1) hidden.2
  cases about : operation.concerns space (space.qualify hidden.1) hidden.2 with
  | true =>
      rw [about, if_pos rfl] at here hereToo
      obtain ⟨fit, same⟩ := Operation.after_of_fits (fits about) held
      obtain ⟨fitToo, sameToo⟩ := Operation.after_of_fits (fits about) heldToo
      refine ⟨⟨visible, ?_⟩, here ▸ fit, hereToo ▸ fitToo⟩
      rw [here, hereToo, same, sameToo]
      exact h.unreadable
  | false =>
      rw [about, if_neg Bool.false_ne_true] at here hereToo
      refine ⟨⟨visible, ?_⟩, here ▸ held, hereToo ▸ heldToo⟩
      rw [here, hereToo]
      exact h.unreadable

/-- A batch that brings nothing unreadable to the hidden place gets stuck on both rows or on
neither, and leaves them alike, by induction over its operations.
-/
theorem foldl_apply (h : first.Matches space hidden second) (one two : Outcome)
    {operations : List Operation}
    (held : kind.FitsRow ((first (space.qualify hidden.1)).get? hidden.2))
    (heldToo : kind.FitsRow ((second (space.qualify hidden.1)).get? hidden.2))
    (fits : ∀ operation ∈ operations,
      operation.concerns space (space.qualify hidden.1) hidden.2 = true →
        kind.Fits operation.document)
    : PlainStore.getStuck kind space operations (first, one)
        = PlainStore.getStuck kind space operations (second, two)
      ∧ (operations.foldl (PlainStore.apply kind space) (first, one)).1.Matches space hidden
        (operations.foldl (PlainStore.apply kind space) (second, two)).1 := by
  induction operations generalizing first second one two with
  | nil => exact ⟨rfl, h⟩
  | cons operation rest ih =>
      obtain ⟨next, fit, fitToo⟩ :=
        h.apply one two held heldToo (fits operation List.mem_cons_self)
      obtain ⟨stuck, last⟩ := ih next _ _ fit fitToo
        fun other member => fits other (List.mem_cons_of_mem _ member)
      refine ⟨?_, last⟩
      have now : operation.isStuck ((first (space.qualify operation.table)).get? operation.id)
          = operation.isStuck ((second (space.qualify operation.table)).get? operation.id) :=
        Operation.isStuck_congr (h.get?_eq_some_none_iff operation.table operation.id)
      rw [PlainStore.getStuck, PlainStore.getStuck, now]
      exact congrArg _ stuck

end Rows.Matches

-----------------------------------------------------------------------------------------
-- Stores whose rows differ in one place
-----------------------------------------------------------------------------------------

namespace HasPlainForm

variable {S : Type} [TableStore S] [HasPlainForm S] {store other : S} {hidden : String × String}

/-- Whether the rows of two stores differ in one place at most. -/
def RowsMatch (hidden : String × String) (store other : S) : Prop :=
  (plain store).rows.Matches (plain store).space hidden (plain other).rows

theorem rowsMatch_iff (space : (plain store).space = (plain other).space)
    : RowsMatch hidden store other
      ↔ (∀ table id, (table, id) ≠ hidden → stored? store table id = stored? other table id)
        ∧ (stored? store hidden.1 hidden.2 = some none
          ↔ stored? other hidden.1 hidden.2 = some none) := by
  unfold stored? tableRows
  rw [← space]
  exact ⟨fun h => ⟨h.visible, h.unreadable⟩, fun h => ⟨h.1, h.2⟩⟩

/-- A batch that brings nothing unreadable to the hidden place is executed by both stores or by
neither, and leaves their rows alike.
-/
theorem RowsMatch.execute (h : RowsMatch hidden store other) (kinds : kind store = kind other)
    (spaces : (plain store).space = (plain other).space) {operations : List Operation}
    (fits : ∀ operation ∈ operations, operation.key = hidden →
      (kind store).Fits operation.document)
    (deadline : Deadline)
    : RowsMatch hidden (TableStore.execute store operations deadline).2
        (TableStore.execute other operations deadline).2 := by
  have held : (plain store).kind.FitsRow (stored? store hidden.1 hidden.2) :=
    fun _ found => fits_of_stored? found
  have heldToo : (plain store).kind.FitsRow (stored? other hidden.1 hidden.2) := by
    rw [show (plain store).kind = (plain other).kind from kinds]
    exact fun _ found => fits_of_stored? found
  unfold stored? tableRows at held heldToo
  rw [← spaces] at heldToo
  obtain ⟨stuck, last⟩ := Rows.Matches.foldl_apply h {} {} held heldToo
    fun operation member about => fits operation member (Operation.concerns_iff.mp about)
  have same : executes store operations deadline = executes other operations deadline := by
    unfold executes PlainStore.isStuck
    rw [stuck, kinds, spaces, show (plain store).kind = (plain other).kind from kinds]
  unfold RowsMatch
  rw [(kind_execute store operations deadline).2]
  cases run : executes store operations deadline with
  | true =>
      rw [rows_execute run, rows_execute (same ▸ run)]
      unfold PlainStore.applyAll
      rw [← spaces, ← show (plain store).kind = (plain other).kind from kinds]
      exact last
  | false =>
      rw [plain_execute_of_fails run, plain_execute_of_fails (same ▸ run)]
      exact h

end HasPlainForm

end Telemetry.Storage
