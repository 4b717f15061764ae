import Telemetry.Proofs.Storage.DrainedBatches

/-! Batches in parts and in other orders. A batch that succeeds comes to what its parts come to one
after the other, so every operation meets the row that those before it left, and the outcome accounts
for each of them. Operations about different rows come to the same in every order.
-/

namespace Telemetry.Storage

open HasPlainForm

-----------------------------------------------------------------------------------------
-- Outcomes
-----------------------------------------------------------------------------------------

/-- The table and the id of the row that a rejected operation was about. -/
def FailedOperation.key (failed : FailedOperation) : String × String :=
  (failed.table, failed.id)

namespace Outcome

/-- The outcome of two batches one after the other. -/
def append (first second : Outcome) : Outcome :=
  ⟨first.applied + second.applied, first.failed ++ second.failed⟩

instance : Append Outcome := ⟨append⟩

theorem append_eq (first second : Outcome)
    : first ++ second = ⟨first.applied + second.applied, first.failed ++ second.failed⟩ :=
  rfl

@[simp] theorem append_empty (outcome : Outcome) : outcome ++ ({} : Outcome) = outcome := by
  simp [append_eq]

theorem append_assoc (first second third : Outcome)
    : first ++ second ++ third = first ++ (second ++ third) := by
  simp [append_eq, Nat.add_assoc]

theorem addApplied_eq (outcome : Outcome)
    : outcome.addApplied = outcome ++ ({} : Outcome).addApplied := by
  simp [addApplied, append_eq]

theorem addFailed_eq (outcome : Outcome) (operation : Operation) (reason : Rejection)
    : outcome.addFailed operation reason
      = outcome ++ ({} : Outcome).addFailed operation reason := by
  simp [addFailed, append_eq]

end Outcome

-----------------------------------------------------------------------------------------
-- Plain stores
-----------------------------------------------------------------------------------------

/-- What an operation comes to with the row that it finds, and the row that it leaves. Nothing comes
of an update of a row that cannot be read.
-/
inductive Operation.Settles (toRow : Document → Row) (operation : Operation)
    : Option Row → Outcome → Option Row → Prop
  | inserted (kind : operation.kind = .insert)
    : operation.Settles toRow none ⟨1, []⟩ (some (toRow operation.document))
  | updated (kind : operation.kind = .update) (row : Document)
    : operation.Settles toRow (some (some row)) ⟨1, []⟩
        (some (toRow (overwrite row operation.document)))
  | rowExists (kind : operation.kind = .insert) (row : Row)
    : operation.Settles toRow (some row) ⟨0, [⟨operation.table, operation.id, .rowExists⟩]⟩
        (some row)
  | rowMissing (kind : operation.kind = .update)
    : operation.Settles toRow none ⟨0, [⟨operation.table, operation.id, .rowMissing⟩]⟩ none

namespace Operation.Settles

variable {toRow : Document → Row} {operation : Operation} {found left : Option Row}
variable {own : Outcome}

/-- An operation is rejected if it is an insert of a row that exists or an update of one that does
not.
-/
theorem failed_eq_nil_iff (h : operation.Settles toRow found own left)
    : own.failed = [] ↔ (operation.kind = .insert ↔ found = none) := by
  cases h with
  | inserted kind => simp [kind]
  | updated kind row => simp [kind]
  | rowExists kind row => simp [kind]
  | rowMissing kind => simp [kind]

theorem eq_of_failed (h : operation.Settles toRow found own left) (failed : own.failed ≠ [])
    : left = found := by
  cases h with
  | inserted kind => exact absurd rfl failed
  | updated kind row => exact absurd rfl failed
  | rowExists kind row => rfl
  | rowMissing kind => rfl

/-- One operation is either applied or rejected. -/
theorem total_eq_one (h : operation.Settles toRow found own left)
    : own.applied + own.failed.length = 1 := by
  cases h <;> rfl

theorem sublist_key (h : operation.Settles toRow found own left)
    : (own.failed.map FailedOperation.key).Sublist [operation.key] := by
  cases h with
  | inserted kind => exact List.nil_sublist _
  | updated kind row => exact List.nil_sublist _
  | rowExists kind row => exact List.Sublist.refl _
  | rowMissing kind => exact List.Sublist.refl _

end Operation.Settles

namespace PlainStore

variable (store : PlainStore)

def afterAll (operations : List Operation) : PlainStore :=
  { store with rows := (store.applyAll operations).1 }

/-- One operation adds its own outcome to that of the operations before it. -/
theorem apply_eq (kind : BackendKind) (space : Namespace) (rows : Rows) (outcome : Outcome)
    (operation : Operation)
    : apply kind space (rows, outcome) operation
      = ((apply kind space (rows, {}) operation).1,
        outcome ++ (apply kind space (rows, {}) operation).2) := by
  unfold apply
  dsimp only
  cases operation.written kind.row
      ((rows (space.qualify operation.table)).get? operation.id) with
  | ok document => exact congrArg (Prod.mk _) outcome.addApplied_eq
  | error reason => exact congrArg (Prod.mk _) (outcome.addFailed_eq operation reason)

/-- A batch adds its own outcome to that of the batches before it, by induction over its
operations.
-/
theorem foldl_apply_eq (kind : BackendKind) (space : Namespace) (rows : Rows) (outcome : Outcome)
    (operations : List Operation)
    : operations.foldl (apply kind space) (rows, outcome)
      = ((operations.foldl (apply kind space) (rows, {})).1,
        outcome ++ (operations.foldl (apply kind space) (rows, {})).2) := by
  induction operations generalizing rows outcome with
  | nil => exact congrArg (Prod.mk rows) outcome.append_empty.symm
  | cons operation rest ih =>
      rw [List.foldl_cons, List.foldl_cons, apply_eq kind space rows outcome, ih,
        ih (apply kind space (rows, {}) operation).1 (apply kind space (rows, {}) operation).2,
        Outcome.append_assoc]

/-- A batch does what its parts do one after the other. -/
theorem applyAll_append (first second : List Operation)
    : store.applyAll (first ++ second)
      = (((store.afterAll first).applyAll second).1,
        (store.applyAll first).2 ++ ((store.afterAll first).applyAll second).2) := by
  unfold applyAll
  rw [List.foldl_append]
  exact foldl_apply_eq _ _ _ _ second

theorem afterAll_append (first second : List Operation)
    : store.afterAll (first ++ second) = (store.afterAll first).afterAll second := by
  unfold afterAll
  rw [applyAll_append]
  rfl

/-- A batch gets stuck in one of its parts. -/
theorem isStuck_append (first second : List Operation)
    : store.isStuck (first ++ second)
      = (store.isStuck first || (store.afterAll first).isStuck second) := by
  have parts (state : Rows × Outcome)
      : getStuck store.kind store.space (first ++ second) state
        = (getStuck store.kind store.space first state
          || getStuck store.kind store.space second
            (first.foldl (apply store.kind store.space) state)) := by
    induction first generalizing state with
    | nil => rfl
    | cons operation rest ih =>
        rw [List.cons_append, getStuck, getStuck, List.foldl_cons, ih, Bool.or_assoc]
  unfold isStuck
  rw [parts]
  exact congrArg _ (getStuck_congr _ _ second rfl)

/-- What a batch of one operation comes to. -/
theorem settles_applyAll {operation : Operation} (free : store.isStuck [operation] = false)
    : operation.Settles store.kind.row (operation.row? store.space store.rows)
        (store.applyAll [operation]).2
        (operation.row? store.space (store.afterAll [operation]).rows) := by
  have free : operation.isStuck (operation.row? store.space store.rows) = false :=
    (Bool.or_false _).symm.trans free
  have outcome := outcome_apply store.kind store.space (store.rows, {}) operation
  have row := get?_apply store.kind store.space (store.rows, {}) operation
    (store.space.qualify operation.table) operation.id
  rw [if_pos (Operation.concerns_iff.mpr rfl)] at row
  change (store.applyAll [operation]).2 = _ at outcome
  change operation.row? store.space (store.afterAll [operation]).rows = _ at row
  rw [outcome, row]
  change operation.Settles _ (operation.row? store.space store.rows) _
    (operation.after _ (operation.row? store.space store.rows))
  unfold Operation.rejected? Operation.after
  generalize operation.row? store.space store.rows = found at free
  cases kind : operation.kind with
  | insert =>
      cases found with
      | none => simpa [Operation.written, kind] using .inserted kind
      | some row => simpa [Operation.written, kind] using .rowExists kind row
  | update =>
      rcases found with _ | _ | row
      · simpa [Operation.written, kind] using .rowMissing kind
      · simp [Operation.isStuck, kind] at free
      · simpa [Operation.written, kind] using .updated kind row

/-- A batch does what its first operation does and then the others. -/
theorem applyAll_cons (operation : Operation) (rest : List Operation)
    : (store.applyAll (operation :: rest)).2
      = (store.applyAll [operation]).2 ++ ((store.afterAll [operation]).applyAll rest).2 :=
  congrArg Prod.snd (store.applyAll_append [operation] rest)

theorem isStuck_cons {operation : Operation} {rest : List Operation}
    (free : store.isStuck (operation :: rest) = false)
    : store.isStuck [operation] = false ∧ (store.afterAll [operation]).isStuck rest = false :=
  Bool.or_eq_false_iff.mp ((store.isStuck_append [operation] rest).symm.trans free)

/-- Every operation is either applied or rejected, by induction over the operations. -/
theorem total_applyAll {operations : List Operation} (free : store.isStuck operations = false)
    : (store.applyAll operations).2.applied + (store.applyAll operations).2.failed.length
      = operations.length := by
  induction operations generalizing store with
  | nil => rfl
  | cons operation rest ih =>
      obtain ⟨own, others⟩ := store.isStuck_cons free
      have one := (store.settles_applyAll own).total_eq_one
      have later := ih (store.afterAll [operation]) others
      rw [applyAll_cons, Outcome.append_eq, List.length_cons]
      dsimp only
      rw [List.length_append]
      omega

/-- The rejected operations stand in the order of the batch, by induction over the operations. -/
theorem sublist_keys_applyAll {operations : List Operation}
    (free : store.isStuck operations = false)
    : ((store.applyAll operations).2.failed.map FailedOperation.key).Sublist
        (operations.map Operation.key) := by
  induction operations generalizing store with
  | nil => exact List.Sublist.refl _
  | cons operation rest ih =>
      obtain ⟨own, others⟩ := store.isStuck_cons free
      have one := (store.settles_applyAll own).sublist_key
      rw [applyAll_cons, Outcome.append_eq, List.map_append]
      exact one.append (ih (store.afterAll [operation]) others)

/-- A batch leaves the rows that no operation of it is about. -/
theorem get?_applyAll_of_notMem {operations : List Operation} {table id : String}
    (unnamed : (table, id) ∉ operations.map Operation.key)
    : ((store.applyAll operations).1 (store.space.qualify table)).get? id
      = (store.rows (store.space.qualify table)).get? id := by
  have nothing : operations.filter (·.concerns store.space (store.space.qualify table) id) = [] :=
    List.filter_eq_nil_iff.mpr fun operation member concerns =>
      unnamed (List.mem_map.mpr ⟨operation, member, Operation.concerns_iff.mp concerns⟩)
  rw [applyAll, get?_foldl_apply, nothing]
  rfl

variable {store} {operations reordered : List Operation}

/-- Of operations about different rows the same one is about a row in every order. -/
theorem filter_concerns_perm (perm : reordered.Perm operations)
    (distinct : (operations.map Operation.key).Nodup) (space : Namespace) (name id : String)
    : reordered.filter (·.concerns space name id)
      = operations.filter (·.concerns space name id) := by
  by_cases concerned : ∃ operation ∈ operations, operation.concerns space name id = true
  · obtain ⟨operation, member, concerns⟩ := concerned
    obtain ⟨rfl, rfl⟩ : space.qualify operation.table = name ∧ operation.id = id := by
      simpa [Operation.concerns] using concerns
    have distinctReordered := (perm.map Operation.key).nodup_iff.mpr distinct
    rw [filter_concerns_of_mem space distinct member,
      filter_concerns_of_mem space distinctReordered (perm.mem_iff.mpr member)]
  · have nothing {batch : List Operation} (all : ∀ operation ∈ batch, operation ∈ operations)
        : batch.filter (·.concerns space name id) = [] :=
      List.filter_eq_nil_iff.mpr fun operation member concerns =>
        concerned ⟨operation, all operation member, concerns⟩
    rw [nothing fun _ => perm.mem_iff.mp, nothing fun _ member => member]

/-- Operations about different rows leave the same rows in every order. -/
theorem afterAll_perm (perm : reordered.Perm operations)
    (distinct : (operations.map Operation.key).Nodup)
    : store.afterAll reordered = store.afterAll operations := by
  have rows : (store.applyAll reordered).1 = (store.applyAll operations).1 := by
    funext name
    refine KeyMap.ext_get? fun id => ?_
    rw [applyAll, applyAll, get?_foldl_apply, get?_foldl_apply,
      filter_concerns_perm perm distinct store.space name id]
  unfold afterAll
  rw [rows]

/-- Operations about different rows get stuck alike in every order. -/
theorem isStuck_perm (perm : reordered.Perm operations)
    (distinct : (operations.map Operation.key).Nodup)
    : store.isStuck reordered = store.isStuck operations := by
  have distinctReordered := (perm.map Operation.key).nodup_iff.mpr distinct
  unfold isStuck
  rw [getStuck_eq_any _ _ distinct, getStuck_eq_any _ _ distinctReordered]
  exact perm.any_eq

/-- A batch that gets stuck does so at an update of a row that cannot be read, by induction over its
operations.
-/
theorem exists_of_isStuck {operations : List Operation} (stuck : store.isStuck operations = true)
    : ∃ head operation tail, operations = head ++ operation :: tail
        ∧ store.isStuck head = false ∧ operation.kind = .update
        ∧ operation.row? store.space (store.afterAll head).rows = some none := by
  induction operations generalizing store with
  | nil => cases stuck
  | cons operation rest ih =>
      rw [← List.singleton_append, isStuck_append] at stuck
      cases own : store.isStuck [operation] with
      | true =>
          have own : operation.isStuck (operation.row? store.space store.rows) = true :=
            (Bool.or_false _).symm.trans own
          refine ⟨[], operation, rest, rfl, rfl, ?_⟩
          change _ ∧ operation.row? store.space store.rows = _
          rcases found : operation.row? store.space store.rows with _ | _ | row
          · rw [found] at own; cases own
          · rw [found] at own; exact ⟨of_decide_eq_true own, rfl⟩
          · rw [found] at own; cases own
      | false =>
          rw [own, Bool.false_or] at stuck
          obtain ⟨head, other, tail, rfl, free, update, unreadable⟩ := ih stuck
          refine ⟨operation :: head, other, tail, rfl, ?_, update, ?_⟩
          · rw [← List.singleton_append, isStuck_append, own, free]
            rfl
          · rw [← List.singleton_append, afterAll_append]
            exact unreadable

/-- Operations about different rows are applied or rejected alike in every order. -/
theorem outcome_perm (perm : reordered.Perm operations)
    (distinct : (operations.map Operation.key).Nodup)
    : (store.applyAll reordered).2.applied = (store.applyAll operations).2.applied
      ∧ (store.applyAll reordered).2.failed.Perm (store.applyAll operations).2.failed := by
  have distinctReordered := (perm.map Operation.key).nodup_iff.mpr distinct
  unfold applyAll
  rw [outcome_foldl_apply _ _ distinct, outcome_foldl_apply _ _ distinctReordered]
  dsimp only
  rw [(perm.filter _).length_eq]
  exact ⟨rfl, (perm.filterMap _).append_left _⟩

end PlainStore

-----------------------------------------------------------------------------------------
-- Stores
-----------------------------------------------------------------------------------------

section

variable {S : Type} [TableStore S]

/-- Whether a batch succeeds with an outcome and leaves a store. -/
def Executes (store : S) (operations : List Operation) (deadline : Deadline) (outcome : Outcome)
    (left : S) : Prop :=
  TableStore.execute store operations deadline = (.ok outcome, left)

def HoldSameRows (first second : S) : Prop :=
  ∀ table id, TableStore.row? first table id = TableStore.row? second table id

theorem HoldSameRows.trans {first second third : S} (h : HoldSameRows first second)
    (more : HoldSameRows second third)
    : HoldSameRows first third :=
  fun table id => (h table id).trans (more table id)

variable [HasPlainForm S]

theorem HoldSameRows.of_plain {first second : S} (same : plain first = plain second)
    : HoldSameRows first second := by
  intro table id
  exact (row?_plain first table id).symm.trans (same ▸ row?_plain second table id)

/-- What one operation does to the rows of a store, of which the others stay. -/
structure Operation.Changes (operation : Operation) (found : S) (own : Outcome) (next : S)
    : Prop where
  own_row : ∃ before after,
    TableStore.row? found operation.table operation.id = PlainStore.read before
    ∧ TableStore.row? next operation.table operation.id = PlainStore.read after
    ∧ operation.Settles (HasPlainForm.kind found).row before own after
  other_rows : ∀ table id, (table, id) ≠ operation.key →
    TableStore.row? next table id = TableStore.row? found table id

namespace Operation.Changes

variable {operation : Operation} {found next : S} {own : Outcome}

theorem failed_eq_nil_iff (h : operation.Changes found own next)
    : own.failed = [] ↔ (operation.kind = .insert
        ↔ TableStore.row? found operation.table operation.id = .ok none) := by
  obtain ⟨before, after, reads, _, settles⟩ := h.own_row
  rw [settles.failed_eq_nil_iff, reads]
  rcases before with _ | _ | row <;> simp [PlainStore.read]

/-- An insert is rejected if its row exists. -/
theorem insert_rejected_iff (h : operation.Changes found own next)
    (insert : operation.kind = .insert)
    : own.failed ≠ [] ↔ TableStore.row? found operation.table operation.id ≠ .ok none := by
  rw [Ne, h.failed_eq_nil_iff]
  simp [insert]

/-- An update is rejected if its row does not exist. -/
theorem update_rejected_iff (h : operation.Changes found own next)
    (update : operation.kind = .update)
    : own.failed ≠ [] ↔ TableStore.row? found operation.table operation.id = .ok none := by
  rw [Ne, h.failed_eq_nil_iff]
  simp [update]

/-- A rejected operation changes no row. -/
theorem holdSameRows (h : operation.Changes found own next) (rejected : own.failed ≠ [])
    : HoldSameRows next found := by
  intro table id
  by_cases here : (table, id) = operation.key
  · obtain ⟨before, after, reads, leaves, settles⟩ := h.own_row
    cases here
    rw [reads, leaves, settles.eq_of_failed rejected]
  · exact h.other_rows table id here

end Operation.Changes

variable {store left : S} {deadline : Deadline} {outcome : Outcome}
variable {operations reordered : List Operation}

/-- A batch that succeeds was worked to its end and not dropped, and came to what it does on the
plain form.
-/
theorem Executes.eq_plain (h : Executes store operations deadline outcome left)
    : (kind store).drops deadline = false ∧ (plain store).isStuck operations = false
      ∧ outcome = ((plain store).applyAll operations).2
      ∧ plain left = (plain store).afterAll operations := by
  have run : executes store operations deadline = true := by
    rw [← isOk_execute, h]
    rfl
  obtain ⟨free, inTime⟩ := (Bool.and_eq_true _ _).mp run
  have free : (plain store).isStuck operations = false := by simpa using free
  have answer := result_execute run
  have leaves := (execute_eq store operations deadline).2
  rw [h] at answer leaves
  have notDropped : ¬(plain store).kind.drops deadline = true := by simpa [kind] using inTime
  rw [PlainStore.execute, if_neg (by simp [free]), if_neg notDropped] at leaves
  exact ⟨by simpa using inTime, free, Except.ok.inj answer, leaves⟩

/-- A batch that is worked to its end and not dropped succeeds. -/
theorem exists_executes (inTime : (kind store).drops deadline = false)
    (free : (plain store).isStuck operations = false)
    : ∃ outcome left, Executes store operations deadline outcome left := by
  have run : executes store operations deadline = true := by simp [executes, free, inTime]
  exact ⟨_, _, Prod.ext (result_execute run) rfl⟩

/-- A batch that is not dropped fails only at an update of a row that cannot be read, and changes
nothing then.
-/
theorem exists_of_fails (inTime : (kind store).drops deadline = false)
    (stuck : (plain store).isStuck operations = true)
    : ∃ left head operation tail earlier found,
        TableStore.execute store operations deadline = (.error .undecodable, left)
        ∧ HoldSameRows left store ∧ operations = head ++ operation :: tail
        ∧ Executes store head deadline earlier found ∧ operation.kind = .update
        ∧ TableStore.row? found operation.table operation.id = .error .undecodable := by
  obtain ⟨head, operation, tail, split, free, update, unreadable⟩ :=
    (plain store).exists_of_isStuck stuck
  obtain ⟨earlier, found, executed⟩ := exists_executes inTime free
  have fails : executes store operations deadline = false := by simp [executes, stuck]
  have answer : (TableStore.execute store operations deadline).1 = .error .undecodable := by
    rw [(execute_eq store operations deadline).1, PlainStore.execute, if_pos stuck]
  refine ⟨_, head, operation, tail, earlier, found, Prod.ext answer rfl,
    .of_plain (plain_execute_of_fails fails), split, executed, update, ?_⟩
  have leaves : plain found = (plain store).afterAll head := executed.eq_plain.2.2.2
  rw [row?_eq_error_iff]
  refine ⟨?_, rfl⟩
  unfold stored? tableRows
  rw [leaves]
  exact unreadable

namespace Executes

theorem inTime (h : Executes store operations deadline outcome left)
    : (kind left).drops deadline = false := by
  obtain ⟨inTime, _, _, leaves⟩ := h.eq_plain
  unfold kind at *
  rw [leaves]
  exact inTime

/-- A batch comes to what its parts come to one after the other. -/
theorem append {first second : List Operation}
    (h : Executes store (first ++ second) deadline outcome left)
    : ∃ earlier between later last, Executes store first deadline earlier between
      ∧ Executes between second deadline later last
      ∧ outcome = earlier ++ later ∧ HoldSameRows last left := by
  obtain ⟨inTime, free, rfl, leaves⟩ := h.eq_plain
  obtain ⟨freeFirst, freeSecond⟩ :=
    Bool.or_eq_false_iff.mp (((plain store).isStuck_append first second).symm.trans free)
  obtain ⟨earlier, between, executed⟩ := exists_executes inTime freeFirst
  obtain ⟨_, _, rfl, leavesBetween⟩ := executed.eq_plain
  rw [← leavesBetween] at freeSecond
  obtain ⟨later, last, executedLater⟩ := exists_executes executed.inTime freeSecond
  obtain ⟨_, _, rfl, leavesLast⟩ := executedLater.eq_plain
  refine ⟨_, between, _, last, executed, executedLater, ?_, .of_plain ?_⟩
  · rw [PlainStore.applyAll_append, leavesBetween]
  · rw [leavesLast, leavesBetween, leaves, PlainStore.afterAll_append]

/-- A batch leaves the rows that no operation of it is about. -/
theorem row?_of_notMem (h : Executes store operations deadline outcome left) {table id : String}
    (unnamed : (table, id) ∉ operations.map Operation.key)
    : TableStore.row? left table id = TableStore.row? store table id := by
  obtain ⟨_, _, _, leaves⟩ := h.eq_plain
  rw [row?_eq_stored?, row?_eq_stored?]
  unfold stored? tableRows
  rw [leaves]
  exact congrArg PlainStore.read ((plain store).get?_applyAll_of_notMem unnamed)

/-- A batch of one operation does to the rows what the operation does. -/
theorem changes {operation : Operation} (h : Executes store [operation] deadline outcome left)
    : operation.Changes store outcome left := by
  obtain ⟨_, free, rfl, leaves⟩ := h.eq_plain
  refine ⟨⟨_, _, row?_eq_stored? store _ _, row?_eq_stored? left _ _, ?_⟩,
    fun table id other => h.row?_of_notMem (List.mem_singleton.not.mpr other)⟩
  unfold stored? tableRows
  rw [leaves]
  exact (plain store).settles_applyAll free

/-- An operation in the middle of a batch does what it does alone to the rows that it finds. -/
theorem changes_at {head tail : List Operation} {operation : Operation}
    (h : Executes store (head ++ operation :: tail) deadline outcome left)
    : ∃ earlier found own next later last, Executes store head deadline earlier found
      ∧ Executes found [operation] deadline own next ∧ Executes next tail deadline later last
      ∧ outcome = earlier ++ (own ++ later) ∧ HoldSameRows last left
      ∧ operation.Changes found own next := by
  obtain ⟨earlier, found, _, _, executed, executedRest, rfl, same⟩ := h.append
  obtain ⟨own, next, later, last, alone, executedTail, rfl, sameRest⟩ :=
    append (show Executes found ([operation] ++ tail) _ _ _ from executedRest)
  exact ⟨earlier, found, own, next, later, last, executed, alone, executedTail, rfl,
    sameRest.trans same, alone.changes⟩

theorem total (h : Executes store operations deadline outcome left)
    : outcome.applied + outcome.failed.length = operations.length := by
  obtain ⟨_, free, rfl, _⟩ := h.eq_plain
  exact (plain store).total_applyAll free

theorem sublist_keys (h : Executes store operations deadline outcome left)
    : (outcome.failed.map FailedOperation.key).Sublist (operations.map Operation.key) := by
  obtain ⟨_, free, rfl, _⟩ := h.eq_plain
  exact (plain store).sublist_keys_applyAll free

/-- Operations about different rows come to the same in every order. -/
theorem perm (h : Executes store operations deadline outcome left)
    (distinct : (operations.map Operation.key).Nodup) (order : reordered.Perm operations)
    : ∃ other last, Executes store reordered deadline other last
      ∧ other.applied = outcome.applied ∧ other.failed.Perm outcome.failed
      ∧ HoldSameRows last left := by
  obtain ⟨inTime, free, rfl, leaves⟩ := h.eq_plain
  have freeReordered := (PlainStore.isStuck_perm order distinct).trans free
  obtain ⟨other, last, executed⟩ := exists_executes inTime freeReordered
  obtain ⟨_, _, rfl, leavesLast⟩ := executed.eq_plain
  obtain ⟨applied, failed⟩ := PlainStore.outcome_perm order distinct
  refine ⟨_, last, executed, applied, failed, .of_plain ?_⟩
  rw [leavesLast, leaves, PlainStore.afterAll_perm order distinct]

end Executes

end

-----------------------------------------------------------------------------------------
-- Workers
-----------------------------------------------------------------------------------------

namespace Worker

variable {R S : Type} [StreamData R] [TableStore S]

/-- A worker after some records, those that it refuses changing nothing. -/
def ingestAll (worker : Worker R) (records : List R) : Worker R :=
  records.foldl (fun worker record => ((worker.ingest record).toOption.map (·.2)).getD worker)
    worker

/-- The operations for staged records that are drained in some order. -/
def operationsFor (worker : Worker R) (store : S) (order : List (String × R)) : List Operation :=
  order.filterMap fun entry => (worker.prepare store entry.2).toOption

variable {entity : Entity} {worker : Worker (Record entity)} {store : S}

/-- Whatever records come, they are staged under their own identities, by induction over them. -/
theorem isKeyed_ingestAll (keyed : worker.IsKeyed) (records : List (Record entity))
    : (worker.ingestAll records).IsKeyed := by
  induction records generalizing worker with
  | nil => exact keyed
  | cons record rest ih =>
      cases ingested : worker.ingest record with
      | error error => simpa [ingestAll, ingested, Except.toOption] using ih keyed
      | ok staged =>
          have next := ih (keyed.ingest ingested).2
          simpa [ingestAll, ingested, Except.toOption] using next

theorem operationsFor_perm {order : List (String × Record entity)}
    (perm : order.Perm worker.staged.entries)
    : (worker.operationsFor store order).Perm (worker.operations store) :=
  perm.filterMap _

end Worker

-----------------------------------------------------------------------------------------
-- Parts and orders of a batch
-----------------------------------------------------------------------------------------

/-- A batch that is not dropped for its deadline succeeds, or it comes to an update of a row that
cannot be read, and changes nothing. The outcome of one that succeeds accounts for every operation,
the rejected ones in their order, and rows that it does not name stay. It comes to what its parts
come to one after the other, so an insert is rejected if its row exists when its turn comes, an
update if it does not, and a rejected operation changes no row. Operations about different rows come
to the same in every order, in particular those of a worker in whichever order it drains its
records, which succeed on the rows that they were prepared for.
-/
theorem batches_compose_and_commute (store : Backend) {deadline : Deadline}
    (inTime : (kind store).drops deadline = false)
    : (∀ operations, (∃ outcome left, Executes store operations deadline outcome left)
        ∨ ∃ left head operation tail earlier found,
          TableStore.execute store operations deadline = (.error .undecodable, left)
          ∧ HoldSameRows left store ∧ operations = head ++ operation :: tail
          ∧ Executes store head deadline earlier found ∧ operation.kind = .update
          ∧ TableStore.row? found operation.table operation.id = .error .undecodable)
      ∧ (∀ operations outcome left, Executes store operations deadline outcome left →
        outcome.applied + outcome.failed.length = operations.length
        ∧ (outcome.failed.map FailedOperation.key).Sublist (operations.map Operation.key)
        ∧ (∀ table id, (table, id) ∉ operations.map Operation.key →
            TableStore.row? left table id = TableStore.row? store table id)
        ∧ (∀ first second, operations = first ++ second →
            ∃ earlier between later last, Executes store first deadline earlier between
              ∧ Executes between second deadline later last
              ∧ outcome.applied = earlier.applied + later.applied
              ∧ outcome.failed = earlier.failed ++ later.failed
              ∧ HoldSameRows last left)
        ∧ (∀ head operation tail, operations = head ++ operation :: tail →
            ∃ earlier found own next later last, Executes store head deadline earlier found
              ∧ Executes found [operation] deadline own next
              ∧ Executes next tail deadline later last
              ∧ outcome.failed = earlier.failed ++ (own.failed ++ later.failed)
              ∧ operation.Changes found own next
              ∧ (operation.kind = .insert → (own.failed ≠ []
                  ↔ TableStore.row? found operation.table operation.id ≠ .ok none))
              ∧ (operation.kind = .update → (own.failed ≠ []
                  ↔ TableStore.row? found operation.table operation.id = .ok none))
              ∧ (own.failed ≠ [] → HoldSameRows next found))
        ∧ ((operations.map Operation.key).Nodup → ∀ reordered, reordered.Perm operations →
            ∃ other last, Executes store reordered deadline other last
              ∧ other.applied = outcome.applied ∧ other.failed.Perm outcome.failed
              ∧ HoldSameRows last left))
      ∧ ∀ {entity : Entity} (descriptor : Descriptor) (mode : MergeMode)
          (records : List (Record entity)) (seen : Backend) (order : List (String × Record entity)),
          let worker := Worker.ingestAll ⟨descriptor, mode, ∅⟩ records
          order.Perm worker.staged.entries →
            (∃ outcome left, Executes store (worker.operations store) deadline outcome left)
            ∧ ∀ outcome left, Executes store (worker.operations seen) deadline outcome left →
              ∃ other last, Executes store (worker.operationsFor seen order) deadline other last
                ∧ other.applied = outcome.applied ∧ other.failed.Perm outcome.failed
                ∧ HoldSameRows last left := by
  refine ⟨fun operations => ?_, fun operations outcome left executed => ?_, ?_⟩
  · cases stuck : (plain store).isStuck operations with
    | false => exact .inl (exists_executes inTime stuck)
    | true => exact .inr (exists_of_fails inTime stuck)
  · refine ⟨executed.total, executed.sublist_keys, fun table id => executed.row?_of_notMem, ?_, ?_,
      fun distinct reordered order => executed.perm distinct order⟩
    · rintro first second rfl
      obtain ⟨earlier, between, later, last, executedFirst, executedSecond, rfl, same⟩ :=
        executed.append
      exact ⟨earlier, between, later, last, executedFirst, executedSecond, rfl, rfl, same⟩
    · rintro head operation tail rfl
      obtain ⟨earlier, found, own, next, later, last, executedHead, alone, executedTail, rfl, _,
        changes⟩ := executed.changes_at
      exact ⟨earlier, found, own, next, later, last, executedHead, alone, executedTail, rfl,
        changes, changes.insert_rejected_iff, changes.update_rejected_iff, changes.holdSameRows⟩
  · intro entity descriptor mode records seen order worker perm
    have keyed : worker.IsKeyed :=
      Worker.isKeyed_ingestAll (Worker.isKeyed_cleared ⟨descriptor, mode, ∅⟩) records
    refine ⟨exists_executes inTime ?_, fun outcome left executed =>
      executed.perm (Worker.nodup_keys_operations keyed) (Worker.operationsFor_perm perm)⟩
    exact PlainStore.getStuck_of_suits _ _ (Worker.nodup_keys_operations keyed) _
      worker.suits_of_mem_operations

/-- An insert and an update without a row, in either order. -/
theorem batches_compose_and_commute_of_rejected_update
    : let store := Backend.ofKind .database
      let operations : List Operation := [⟨.insert, "t", "a", ∅⟩, ⟨.update, "t", "b", ∅⟩]
      (kind store).drops .ahead = false
        ∧ ∃ outcome left other last, Executes store operations .ahead outcome left
          ∧ outcome.applied + outcome.failed.length = 2
          ∧ Executes store operations.reverse .ahead other last
          ∧ other.failed.Perm outcome.failed ∧ HoldSameRows last left := by
  intro store operations
  have inTime : (kind store).drops .ahead = false := rfl
  obtain ⟨outcome, left, executed⟩ :=
    exists_executes inTime (by decide : (plain store).isStuck operations = false)
  obtain ⟨total, _, _, _, _, orders⟩ :=
    (batches_compose_and_commute store inTime).2.1 operations outcome left executed
  obtain ⟨other, last, reversed, _, failed, same⟩ :=
    orders (by decide) operations.reverse (List.reverse_perm operations)
  exact ⟨inTime, outcome, left, other, last, executed, total, reversed, failed, same⟩

end Telemetry.Storage
