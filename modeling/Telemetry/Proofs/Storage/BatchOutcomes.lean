import Mathlib.Data.List.Basic
import Telemetry.Proofs.Storage.BatchExecution

/-! What becomes of the operations of a batch that are about different rows. None of them sees what
another one writes, so each is applied or rejected by the row that was there before the batch.
-/

namespace Telemetry.Storage

-----------------------------------------------------------------------------------------
-- Single operations
-----------------------------------------------------------------------------------------

namespace Operation

/-- The table and the id of the row that an operation is about. -/
def key (operation : Operation) : String × String :=
  (operation.table, operation.id)

def row? (space : Namespace) (rows : Rows) (operation : Operation) : Option Row :=
  (rows (space.qualify operation.table)).get? operation.id

/-- Whether an operation suits the row that is there: an insert none, an update one that can be
read.
-/
def Suits (operation : Operation) : Option Row → Prop
  | none => operation.kind = .insert
  | some none => False
  | some (some _) => operation.kind = .update

/-- The report of an operation that a row makes fail. -/
def rejected? (toRow : Document → Row) (operation : Operation) (row : Option Row)
    : Option FailedOperation :=
  match operation.written toRow row with
  | .ok _ => none
  | .error reason => some ⟨operation.table, operation.id, reason⟩

variable {toRow : Document → Row} {operation : Operation} {row : Option Row}

theorem Suits.insert_iff (suits : operation.Suits row)
    : operation.kind = .insert ↔ row = none := by
  rcases row with _ | _ | document
  · exact iff_of_true suits rfl
  · exact suits.elim
  · exact iff_of_false (fun insert => nomatch insert.symm.trans suits) (by simp)

theorem Suits.update_iff (suits : operation.Suits row)
    : operation.kind = .update ↔ ∃ document, row = some (some document) := by
  rcases row with _ | _ | document
  · exact iff_of_false (fun update => nomatch update.symm.trans suits) (by simp)
  · exact suits.elim
  · exact iff_of_true suits ⟨document, rfl⟩

/-- What suits the row is written. -/
theorem Suits.written (toRow : Document → Row) (suits : operation.Suits row)
    : ∃ written, operation.written toRow row = .ok written := by
  rcases row with _ | _ | document
  · exact ⟨toRow operation.document, by
      simp only [Operation.written, show operation.kind = .insert from suits]⟩
  · exact suits.elim
  · exact ⟨toRow (overwrite document operation.document), by
      simp only [Operation.written, show operation.kind = .update from suits, Option.bind_some]⟩

theorem Suits.not_isStuck (suits : operation.Suits row) : operation.isStuck row = false := by
  rcases row with _ | _ | document
  · rfl
  · exact suits.elim
  · rfl

theorem concerns_iff {space : Namespace} {table id : String}
    : operation.concerns space (space.qualify table) id = true ↔ operation.key = (table, id) := by
  simp [concerns, Namespace.qualify_inj, key]

/-- A report names the row of the operation that failed. -/
theorem key_of_rejected? {failed : FailedOperation}
    (h : operation.rejected? toRow row = some failed)
    : operation.key = (failed.table, failed.id) := by
  unfold rejected? at h
  split at h
  · cases h
  · cases h
    rfl

end Operation

-----------------------------------------------------------------------------------------
-- Batches about different rows
-----------------------------------------------------------------------------------------

namespace PlainStore

/-- An operation leaves the rows of operations about other rows alone. -/
theorem row?_apply (kind : BackendKind) (space : Namespace) (state : Rows × Outcome)
    {operation other : Operation} (differ : operation.key ≠ other.key)
    : other.row? space (apply kind space state operation).1 = other.row? space state.1 := by
  have elsewhere : operation.concerns space (space.qualify other.table) other.id = false :=
    Bool.eq_false_iff.mpr fun concerns => differ (Operation.concerns_iff.mp concerns)
  unfold Operation.row?
  rw [get?_apply, elsewhere]
  rfl

theorem row?_apply_of_notMem (kind : BackendKind) (space : Namespace) (state : Rows × Outcome)
    {operation : Operation} {rest : List Operation} (fresh : operation.key ∉ rest.map (·.key))
    : ∀ other ∈ rest, other.row? space (apply kind space state operation).1
        = other.row? space state.1 := by
  intro other member
  refine row?_apply kind space state fun same => fresh ?_
  exact List.mem_map.mpr ⟨other, member, same.symm⟩

/-- The outcome of one operation, by the row that is there. -/
theorem outcome_apply (kind : BackendKind) (space : Namespace) (state : Rows × Outcome)
    (operation : Operation)
    : (apply kind space state operation).2
      = match operation.rejected? kind.row (operation.row? space state.1) with
        | none => state.2.addApplied
        | some failed => { state.2 with failed := state.2.failed ++ [failed] } := by
  unfold apply Operation.rejected? Operation.row?
  dsimp only
  cases operation.written kind.row
      ((state.1 (space.qualify operation.table)).get? operation.id) <;> rfl

/-- Operations about different rows are applied or rejected by the rows before the batch, by
induction over the operations.
-/
theorem outcome_foldl_apply (kind : BackendKind) (space : Namespace) {operations : List Operation}
    (distinct : (operations.map (·.key)).Nodup) (state : Rows × Outcome)
    : (operations.foldl (apply kind space) state).2
      = let rejected := fun operation : Operation =>
          operation.rejected? kind.row (operation.row? space state.1)
        ⟨state.2.applied + (operations.filter fun operation => (rejected operation).isNone).length,
          state.2.failed ++ operations.filterMap rejected⟩ := by
  induction operations generalizing state with
  | nil => simp
  | cons operation rest ih =>
      obtain ⟨fresh, later⟩ := List.nodup_cons.mp distinct
      -- The hypothesis is about the rows after the first operation, which the others do not touch.
      have others := row?_apply_of_notMem kind space state fresh
      have accepted : rest.filter (fun other => (other.rejected? kind.row
            (other.row? space (apply kind space state operation).1)).isNone)
          = rest.filter fun other =>
              (other.rejected? kind.row (other.row? space state.1)).isNone :=
        List.filter_congr fun other member => by rw [others other member]
      have failed : rest.filterMap (fun other => other.rejected? kind.row
            (other.row? space (apply kind space state operation).1))
          = rest.filterMap fun other => other.rejected? kind.row (other.row? space state.1) :=
        List.filterMap_congr fun other member => by rw [others other member]
      rw [List.foldl_cons, ih later]
      dsimp only
      rw [accepted, failed, outcome_apply]
      cases outcome : operation.rejected? kind.row (operation.row? space state.1) with
      | none =>
          simp only [List.filter_cons, outcome, Option.isNone_none, if_true, List.length_cons,
            List.filterMap_cons, Outcome.addApplied, Outcome.mk.injEq, and_true]
          omega
      | some report =>
          simp [outcome]

/-- If all operations of a batch are about different rows and suit them, all are applied. -/
theorem applyAll_of_suits (store : PlainStore) {operations : List Operation}
    (distinct : (operations.map (·.key)).Nodup)
    (suit : ∀ operation ∈ operations, operation.Suits (operation.row? store.space store.rows))
    : (store.applyAll operations).2 = ⟨operations.length, []⟩ := by
  have none : ∀ operation ∈ operations, operation.rejected? store.kind.row
      (operation.row? store.space store.rows) = none := by
    intro operation member
    obtain ⟨_, written⟩ := (suit operation member).written store.kind.row
    simp only [Operation.rejected?, written]
  unfold applyAll
  rw [outcome_foldl_apply _ _ distinct]
  dsimp only
  rw [List.filter_eq_self.mpr fun operation member => by rw [none operation member]; rfl,
    List.filterMap_eq_nil_iff.mpr none, Nat.zero_add, List.nil_append]

/-- Operations about different rows get stuck on the rows before the batch, by induction over the
operations.
-/
theorem getStuck_eq_any (kind : BackendKind) (space : Namespace) {operations : List Operation}
    (distinct : (operations.map (·.key)).Nodup) (state : Rows × Outcome)
    : getStuck kind space operations state
      = operations.any fun operation => operation.isStuck (operation.row? space state.1) := by
  induction operations generalizing state with
  | nil => rfl
  | cons operation rest ih =>
      obtain ⟨fresh, later⟩ := List.nodup_cons.mp distinct
      have others := row?_apply_of_notMem kind space state fresh
      have stuck : rest.any (fun other =>
            other.isStuck (other.row? space (apply kind space state operation).1))
          = rest.any fun other => other.isStuck (other.row? space state.1) := by
        rw [Bool.eq_iff_iff, List.any_eq_true, List.any_eq_true]
        exact exists_congr fun other => and_congr_right fun member => by rw [others other member]
      rw [getStuck, ih later, stuck]
      rfl

/-- A batch about different rows that its operations suit is worked to its end. -/
theorem getStuck_of_suits (kind : BackendKind) (space : Namespace) {operations : List Operation}
    (distinct : (operations.map (·.key)).Nodup) (state : Rows × Outcome)
    (suit : ∀ operation ∈ operations, operation.Suits (operation.row? space state.1))
    : getStuck kind space operations state = false := by
  rw [getStuck_eq_any kind space distinct]
  exact List.any_eq_false.mpr fun operation member =>
    Bool.eq_false_iff.mp (suit operation member).not_isStuck

/-- Of a batch about different rows no operation is rejected that suits its row. -/
theorem not_failed_of_suits (store : PlainStore) {operations : List Operation}
    (distinct : (operations.map (·.key)).Nodup) {table id : String}
    (suit : ∀ operation ∈ operations, operation.key = (table, id) →
      operation.Suits (operation.row? store.space store.rows))
    : ∀ failed ∈ (store.applyAll operations).2.failed, (failed.table, failed.id) ≠ (table, id) := by
  intro failed member same
  unfold applyAll at member
  rw [outcome_foldl_apply _ _ distinct] at member
  obtain ⟨operation, listed, rejected⟩ := List.mem_filterMap.mp member
  have about := (Operation.key_of_rejected? rejected).trans same
  obtain ⟨_, written⟩ := (suit operation listed about).written store.kind.row
  simp [Operation.rejected?, written] at rejected

/-- Of a batch about different rows an operation is the only one about its row. -/
theorem filter_concerns_of_mem (space : Namespace) {operations : List Operation}
    (distinct : (operations.map (·.key)).Nodup) {operation : Operation}
    (member : operation ∈ operations)
    : operations.filter (·.concerns space (space.qualify operation.table) operation.id)
      = [operation] := by
  induction operations with
  | nil => cases member
  | cons first rest ih =>
      obtain ⟨fresh, later⟩ := List.nodup_cons.mp distinct
      rcases List.mem_cons.mp member with rfl | member
      · have others : rest.filter (·.concerns space (space.qualify operation.table) operation.id)
            = [] := by
          refine List.filter_eq_nil_iff.mpr fun other listed concerns => fresh ?_
          exact List.mem_map.mpr ⟨other, listed, Operation.concerns_iff.mp concerns⟩
        rw [List.filter_cons_of_pos (Operation.concerns_iff.mpr rfl), others]
      · have other : ¬first.concerns space (space.qualify operation.table) operation.id = true :=
          fun concerns => fresh
            (List.mem_map.mpr ⟨operation, member, (Operation.concerns_iff.mp concerns).symm⟩)
        rw [List.filter_cons_of_neg other]
        exact ih later member

end PlainStore

-----------------------------------------------------------------------------------------
-- Batches of one operation
-----------------------------------------------------------------------------------------

/-- A batch of one operation that its row accepts writes that row, unless it is dropped. -/
theorem HasPlainForm.execute_of_written {S : Type} [TableStore S] [HasPlainForm S] {store : S}
    {operation : Operation} {deadline : Deadline} {row : Row}
    (inTime : (kind store).drops deadline = false)
    (free : operation.isStuck (stored? store operation.table operation.id) = false)
    (written : operation.written (kind store).row (stored? store operation.table operation.id)
      = .ok row)
    : (TableStore.execute store [operation] deadline).1 = .ok ⟨1, []⟩
      ∧ stored? (TableStore.execute store [operation] deadline).2 operation.table operation.id
        = some row := by
  have worked : (plain store).isStuck [operation] = false := (Bool.or_false _).trans free
  have run : executes store [operation] deadline = true := by simp [executes, worked, inTime]
  have after := stored?_execute store [operation] deadline operation.table operation.id
  rw [if_pos run] at after
  constructor
  · have outcome := PlainStore.outcome_apply (kind store) (plain store).space
      ((plain store).rows, {}) operation
    have accepted : operation.rejected? (kind store).row
        (stored? store operation.table operation.id) = none := by
      simp only [Operation.rejected?, written]
    rw [show Operation.row? _ _ _ = stored? store operation.table operation.id from rfl, accepted]
      at outcome
    exact (result_execute run).trans (congrArg Except.ok outcome)
  · rw [List.filter_cons_of_pos (Operation.concerns_iff.mpr rfl)] at after
    refine after.trans ?_
    simp only [List.filter_nil, List.foldl_cons, List.foldl_nil, Operation.after, written]

/-- A row that is absent is inserted as the store keeps it. -/
theorem HasPlainForm.execute_insert_of_absent {S : Type} [TableStore S] [HasPlainForm S] {store : S}
    {table id : String} {deadline : Deadline} (inTime : (kind store).drops deadline = false)
    (absent : stored? store table id = none) (document : Document)
    : let made := TableStore.execute store [⟨.insert, table, id, document⟩] deadline
      made.1 = .ok ⟨1, []⟩ ∧ stored? made.2 table id = some ((kind store).row document) := by
  have free
      : Operation.isStuck ⟨.insert, table, id, document⟩ (stored? store table id) = false := by
    rw [absent]
    rfl
  have written : Operation.written (kind store).row ⟨.insert, table, id, document⟩
      (stored? store table id) = .ok ((kind store).row document) := by
    rw [absent]
    rfl
  exact execute_of_written inTime free written

-----------------------------------------------------------------------------------------
-- Flushes of batches about different rows
-----------------------------------------------------------------------------------------

namespace Pipeline

open HasPlainForm

variable {S : Type} [TableStore S] [HasPlainForm S]
variable {pipeline : Pipeline} {deadline : Deadline} {store : S}

/-- A batch about different rows that its operations suit is committed unless it is dropped for its
deadline, and its flush succeeds unless the answer is late.
-/
theorem flush_of_suits (distinct : (pipeline.pending.map (·.key)).Nodup)
    (suit : ∀ operation ∈ pipeline.pending,
      operation.Suits (stored? store operation.table operation.id))
    : pipeline.commits deadline store
        = (pipeline.pending.isEmpty || !(kind store).drops deadline)
      ∧ (pipeline.flush BatchSink.store deadline store).result.isOk
        = (pipeline.pending.isEmpty || !(kind store).isLate deadline) := by
  have worked : (plain store).isStuck pipeline.pending = false :=
    PlainStore.getStuck_of_suits _ _ distinct _ suit
  have run : executes store pipeline.pending deadline = !(kind store).drops deadline := by
    simp [executes, worked]
  refine ⟨by rw [commits_eq, run], ?_⟩
  by_cases pending : pipeline.pending = []
  · simp [flush, pending, Except.isOk, Except.toBool]
  · rw [(pipeline.flush_store deadline store pending).2, run,
      List.isEmpty_eq_false_iff.mpr pending, Bool.false_or]
    cases late : (kind store).isLate deadline with
    | true => simp
    | false => simp [BackendKind.drops_of_isLate late]

/-- An operation of a batch that is committed decides what becomes of its row. -/
theorem stored?_flush_of_mem (committed : pipeline.commits deadline store = true)
    (distinct : (pipeline.pending.map (·.key)).Nodup) {operation : Operation}
    (member : operation ∈ pipeline.pending)
    : stored? (pipeline.flush BatchSink.store deadline store).state operation.table operation.id
      = operation.after (kind store).row (stored? store operation.table operation.id) := by
  rw [stored?_flush, PlainStore.filter_concerns_of_mem _ distinct member, if_pos committed]
  rfl

/-- A row that no operation of a batch is about stays as it is. -/
theorem stored?_flush_of_notMem {table id : String}
    (none : ∀ operation ∈ pipeline.pending, operation.key ≠ (table, id))
    : stored? (pipeline.flush BatchSink.store deadline store).state table id
      = stored? store table id := by
  have nothing : pipeline.pending.filter
        (·.concerns (plain store).space ((plain store).space.qualify table) id) = [] :=
    List.filter_eq_nil_iff.mpr fun operation member concerns =>
      none operation member (Operation.concerns_iff.mp concerns)
  rw [stored?_flush, nothing]
  split <;> rfl

/-- A flush whose batch is dropped for its deadline leaves every row as it is. -/
theorem stored?_flush_of_drops (late : (kind store).drops deadline = true) (table id : String)
    : stored? (pipeline.flush BatchSink.store deadline store).state table id
      = stored? store table id := by
  by_cases pending : pipeline.pending = []
  · simp [flush, pending]
  · have dropped : pipeline.commits deadline store = false := by
      simp [commits_eq, executes, pending, late]
    rw [stored?_flush, dropped]
    rfl

end Pipeline

end Telemetry.Storage
