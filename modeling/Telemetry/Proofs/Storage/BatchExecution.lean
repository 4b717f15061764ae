import Telemetry.Proofs.Storage.TransactionRows
import Telemetry.Storage.Pipeline

/-! What a batch does to a single row: what its operations on that row do, one after the other. A
batch that cannot be worked to its end, or that is dropped for its deadline, leaves every row alone;
a flush commits its batch or leaves every row alone, and reports no failure as a success.
-/

namespace Telemetry.Storage

-----------------------------------------------------------------------------------------
-- One row
-----------------------------------------------------------------------------------------

namespace Operation

/-- The row of an operation afterwards; a rejected operation leaves it alone. -/
def after (toRow : Document → Row) (operation : Operation) (row : Option Row) : Option Row :=
  match operation.written toRow row with
  | .ok written => some written
  | .error _ => row

/-- Whether an operation is about the row of an id in the table of a name. -/
def concerns (space : Namespace) (name id : String) (operation : Operation) : Bool :=
  space.qualify operation.table = name && operation.id = id

end Operation

namespace PlainStore

/-- An operation changes no row but its own. -/
theorem get?_apply (kind : BackendKind) (space : Namespace) (state : Rows × Outcome)
    (operation : Operation) (name id : String)
    : ((apply kind space state operation).1 name).get? id
      = if operation.concerns space name id then
          operation.after kind.row ((state.1 name).get? id)
        else (state.1 name).get? id := by
  unfold apply Operation.concerns Operation.after
  dsimp only
  by_cases here : space.qualify operation.table = name
  · subst here
    by_cases same : operation.id = id
    · subst same
      cases operation.written kind.row
          ((state.1 (space.qualify operation.table)).get? operation.id) with
      | ok document => simp [KeyMap.get?_insert]
      | error reason => simp
    · have other : id ≠ operation.id := fun eq => same eq.symm
      cases operation.written kind.row
          ((state.1 (space.qualify operation.table)).get? operation.id) with
      | ok document => simp [KeyMap.get?_insert, same, other]
      | error reason => simp [same]
  · cases operation.written kind.row
        ((state.1 (space.qualify operation.table)).get? operation.id) with
    | ok document => simp [here, Rows.set_other _ _ (Ne.symm here)]
    | error reason => simp [here]

/-- A batch does to a row what its operations on that row do, by induction over the operations. -/
theorem get?_foldl_apply (kind : BackendKind) (space : Namespace) (operations : List Operation)
    (state : Rows × Outcome) (name id : String)
    : ((operations.foldl (apply kind space) state).1 name).get? id
      = (operations.filter (·.concerns space name id)).foldl
          (fun row operation => operation.after kind.row row) ((state.1 name).get? id) := by
  induction operations generalizing state with
  | nil => rfl
  | cons operation rest ih =>
      rw [List.foldl_cons, ih, get?_apply, List.filter_cons]
      split <;> rfl

/-- Whether a batch gets stuck is decided by the rows that it meets, by induction over its
operations.
-/
theorem getStuck_congr (kind : BackendKind) (space : Namespace) (operations : List Operation)
    {state other : Rows × Outcome} (same : state.1 = other.1)
    : getStuck kind space operations state = getStuck kind space operations other := by
  induction operations generalizing state other with
  | nil => rfl
  | cons operation rest ih =>
      have next : (apply kind space state operation).1 = (apply kind space other operation).1 := by
        simp only [apply, same]
        split <;> rfl
      rw [getStuck, getStuck, same, ih next]

end PlainStore

-----------------------------------------------------------------------------------------
-- Rows of stores
-----------------------------------------------------------------------------------------

namespace HasPlainForm

variable {S : Type} [TableStore S] [HasPlainForm S]

/-- Whether a batch is worked to its end and not dropped for its deadline. -/
def executes (store : S) (operations : List Operation) (deadline : Deadline) : Bool :=
  !(plain store).isStuck operations && !(kind store).drops deadline

/-- What executing a batch answers and leaves, told from the plain form of the store. -/
theorem execute_eq (store : S) (operations : List Operation) (deadline : Deadline)
    : (TableStore.execute store operations deadline).1
        = ((plain store).execute operations deadline).1
      ∧ plain (TableStore.execute store operations deadline).2
        = ((plain store).execute operations deadline).2 := by
  have run := execute_plain store operations deadline
  exact ⟨(congrArg Prod.fst run).symm, (congrArg Prod.snd run).symm⟩

theorem kind_execute (store : S) (operations : List Operation) (deadline : Deadline)
    : kind (TableStore.execute store operations deadline).2 = kind store
      ∧ (plain (TableStore.execute store operations deadline).2).space = (plain store).space := by
  unfold kind
  rw [(execute_eq store operations deadline).2, PlainStore.execute]
  split
  · exact ⟨rfl, rfl⟩
  · split <;> exact ⟨rfl, rfl⟩

/-- A batch succeeds exactly if it is executed. -/
theorem isOk_execute (store : S) (operations : List Operation) (deadline : Deadline)
    : (TableStore.execute store operations deadline).1.isOk
      = executes store operations deadline := by
  rw [(execute_eq store operations deadline).1, PlainStore.execute]
  unfold executes kind
  cases (plain store).isStuck operations with
  | true => rfl
  | false => cases (plain store).kind.drops deadline <;> rfl

section

variable {store : S} {operations : List Operation} {deadline : Deadline}

theorem result_execute (run : executes store operations deadline = true)
    : (TableStore.execute store operations deadline).1
      = .ok ((plain store).applyAll operations).2 := by
  obtain ⟨free, inTime⟩ := (Bool.and_eq_true _ _).mp run
  rw [(execute_eq store operations deadline).1, PlainStore.execute,
    if_neg (by simpa using free), if_neg (by simpa [kind] using inTime)]

theorem rows_execute (run : executes store operations deadline = true)
    : (plain (TableStore.execute store operations deadline).2).rows
      = ((plain store).applyAll operations).1 := by
  obtain ⟨free, inTime⟩ := (Bool.and_eq_true _ _).mp run
  rw [(execute_eq store operations deadline).2, PlainStore.execute,
    if_neg (by simpa using free), if_neg (by simpa [kind] using inTime)]

/-- A batch that is not executed leaves the store as it was. -/
theorem plain_execute_of_fails (fails : executes store operations deadline = false)
    : plain (TableStore.execute store operations deadline).2 = plain store := by
  rw [(execute_eq store operations deadline).2, PlainStore.execute]
  unfold executes kind at fails
  cases stuck : (plain store).isStuck operations with
  | true => rfl
  | false =>
      rw [stuck] at fails
      have dropped : (plain store).kind.drops deadline = true := by simpa using fails
      simp [dropped]

end

/-- A batch that is executed does to a row what its operations on that row do. -/
theorem stored?_execute (store : S) (operations : List Operation) (deadline : Deadline)
    (table id : String)
    : stored? (TableStore.execute store operations deadline).2 table id
      = if executes store operations deadline then
          (operations.filter
              (·.concerns (plain store).space ((plain store).space.qualify table) id)).foldl
            (fun row operation => operation.after (kind store).row row)
            (stored? store table id)
        else stored? store table id := by
  unfold stored? tableRows
  rw [(kind_execute store operations deadline).2]
  split
  · next run =>
    rw [rows_execute run]
    exact PlainStore.get?_foldl_apply _ _ _ _ _ _
  · next fails => rw [plain_execute_of_fails (Bool.eq_false_iff.mpr fails)]

end HasPlainForm

-----------------------------------------------------------------------------------------
-- Flushes
-----------------------------------------------------------------------------------------

theorem BackendKind.drops_of_isLate {kind : BackendKind} {deadline : Deadline}
    (inTime : kind.isLate deadline = false)
    : kind.drops deadline = false := by
  cases kind with
  | memory => rfl
  | database => exact (Bool.or_eq_false_iff.mp inTime).1

theorem BackendKind.of_isLate {kind : BackendKind} {deadline : Deadline}
    (late : kind.isLate deadline = true) (kept : kind.drops deadline = false)
    : kind = .database ∧ deadline = .duringCommit := by
  cases kind with
  | memory => cases late
  | database =>
      cases deadline with
      | duringCommit => exact ⟨rfl, rfl⟩
      | passed => cases kept
      | unlimited | ahead => cases late

namespace Pipeline

open HasPlainForm

variable {S : Type} [TableStore S] [HasPlainForm S]

/-- Whether a flush commits its batch. It may do so and still report that the time is over. -/
def commits {S : Type} [TableStore S] (pipeline : Pipeline) (deadline : Deadline) (store : S)
    : Bool :=
  pipeline.pending.isEmpty || (TableStore.execute store pipeline.pending deadline).1.isOk

theorem commits_eq (pipeline : Pipeline) (deadline : Deadline) (store : S)
    : pipeline.commits deadline store
      = (pipeline.pending.isEmpty || executes store pipeline.pending deadline) :=
  congrArg (pipeline.pending.isEmpty || ·) (isOk_execute store pipeline.pending deadline)

/-- A flush executes the pending operations, and succeeds if they are executed and the answer is
there in time.
-/
theorem flush_store (pipeline : Pipeline) (deadline : Deadline) (store : S)
    (pending : pipeline.pending ≠ [])
    : let flush := pipeline.flush BatchSink.store deadline store
      flush.state = (TableStore.execute store pipeline.pending deadline).2
      ∧ flush.result.isOk
        = (executes store pipeline.pending deadline && !(kind store).isLate deadline) := by
  have some : pipeline.pending.isEmpty = false := List.isEmpty_eq_false_iff.mpr pending
  have answer := isOk_execute store pipeline.pending deadline
  have late : TableStore.overruns store pipeline.pending deadline
      = ((kind store).drops deadline
        || ((kind store).isLate deadline && !(plain store).isStuck pipeline.pending)) :=
    (overruns_plain store pipeline.pending deadline).symm
  simp only [flush, some, BatchSink.store, late, Bool.false_eq_true, if_false, true_and]
  unfold executes at answer ⊢
  generalize (plain store).isStuck pipeline.pending = stuck at answer ⊢
  generalize (kind store).drops deadline = dropped at answer ⊢
  cases stuck <;> cases dropped <;> cases (kind store).isLate deadline <;>
    first | exact answer | rfl

/-- A flush in time answers with what became of the pending operations. -/
theorem result_flush (pipeline : Pipeline) {deadline : Deadline} {store : S}
    (free : (plain store).isStuck pipeline.pending = false)
    (inTime : (kind store).isLate deadline = false)
    : (pipeline.flush BatchSink.store deadline store).result
      = .ok ((plain store).applyAll pipeline.pending).2 := by
  by_cases pending : pipeline.pending = []
  · simp [flush, pending, PlainStore.applyAll]
  · have some : pipeline.pending.isEmpty = false := List.isEmpty_eq_false_iff.mpr pending
    have run : executes store pipeline.pending deadline = true := by
      simp [executes, free, BackendKind.drops_of_isLate inTime]
    have early : TableStore.overruns store pipeline.pending deadline = false := by
      refine (overruns_plain store pipeline.pending deadline).symm.trans ?_
      unfold kind at inTime
      simp [TableStore.overruns, PlainStore.overruns, inTime, BackendKind.drops_of_isLate inTime]
    simp [flush, some, BatchSink.store, early, result_execute run]

theorem kind_flush (pipeline : Pipeline) (deadline : Deadline) (store : S)
    : kind (pipeline.flush BatchSink.store deadline store).state = kind store
      ∧ (plain (pipeline.flush BatchSink.store deadline store).state).space
        = (plain store).space := by
  by_cases pending : pipeline.pending = []
  · simp [flush, pending]
  · rw [(pipeline.flush_store deadline store pending).1]
    exact kind_execute store pipeline.pending deadline

/-- A flush that reports success has committed its batch; one that has committed it and reports a
failure ran out of time over it.
-/
theorem isOk_flush (pipeline : Pipeline) (deadline : Deadline) (store : S)
    : let flush := pipeline.flush BatchSink.store deadline store
      (flush.result.isOk = true → pipeline.commits deadline store = true)
      ∧ (pipeline.commits deadline store = true → flush.result.isOk = false →
        kind store = .database ∧ deadline = .duringCommit) := by
  intro flush
  by_cases pending : pipeline.pending = []
  · have nothing : flush = ⟨.ok {}, [], store⟩ := by
      simp only [flush, Pipeline.flush, pending, List.isEmpty_nil, if_true]
    rw [nothing]
    exact ⟨fun _ => by simp [commits, pending], fun _ failed => nomatch failed⟩
  · have some : pipeline.pending.isEmpty = false := List.isEmpty_eq_false_iff.mpr pending
    have succeeds : flush.result.isOk = _ := (pipeline.flush_store deadline store pending).2
    rw [succeeds, commits_eq, some, Bool.false_or]
    refine ⟨fun both => ((Bool.and_eq_true _ _).mp both).1, fun run late => ?_⟩
    rw [run, Bool.true_and, Bool.not_eq_false'] at late
    exact BackendKind.of_isLate late (by simpa using ((Bool.and_eq_true _ _).mp run).2)

/-- A flush that commits its batch does to a row what its operations on that row do; any other one
leaves it alone.
-/
theorem stored?_flush (pipeline : Pipeline) (deadline : Deadline) (store : S) (table id : String)
    : stored? (pipeline.flush BatchSink.store deadline store).state table id
      = if pipeline.commits deadline store then
          (pipeline.pending.filter
              (·.concerns (plain store).space ((plain store).space.qualify table) id)).foldl
            (fun row operation => operation.after (kind store).row row)
            (stored? store table id)
        else stored? store table id := by
  by_cases pending : pipeline.pending = []
  · simp [flush, pending]
  · have some : pipeline.pending.isEmpty = false := List.isEmpty_eq_false_iff.mpr pending
    rw [(pipeline.flush_store deadline store pending).1, stored?_execute, commits_eq, some,
      Bool.false_or]

end Pipeline

end Telemetry.Storage
