import Telemetry.Proofs.Storage.BatchOutcomes

/-! Batches of the transactional store, all or nothing. A transaction may fail before any of its
operations, and at its end for the deadline; it is then rolled back to the tables that it began
with, and a cycle whose batch fails may as well not have been run. A cycle that reports a failure may
have committed its batch all the same: the deadline is not looked at during the commit, and if it
passes then nobody waits for the answer.
-/

namespace Telemetry.Storage

open HasPlainForm

-----------------------------------------------------------------------------------------
-- Transactions that may fail
-----------------------------------------------------------------------------------------

/-- Where the engine underneath a transaction fails: when the transaction is to begin, and at an
operation, by what has been written before it.
-/
structure Faults where
  atBegin : Option Error := none
  atOperation : Transaction → Operation → Option Error := fun _ _ => none

/-- The tables that a transaction leaves if it is dropped. -/
def Transaction.rollback (transaction : Transaction) : Tables :=
  transaction.committed

namespace Database

/-- Works the operations of a batch into a transaction up to the first fault. -/
def stageAll (faults : Faults) (space : Namespace)
    : List Operation → Transaction × Outcome → Transaction × Except Error Outcome
  | [], (transaction, outcome) => (transaction, .ok outcome)
  | operation :: rest, state =>
      let opened := state.1.openTable (space.qualify operation.table)
      match faults.atOperation state.1 operation with
      | some error => (opened, .error error)
      | none =>
          match stage space state operation with
          | .error error => (opened, .error error)
          | .ok state => stageAll faults space rest state

/-- Executes a batch over an engine that may fail. -/
def executeUnless (faults : Faults) (store : Database) (operations : List Operation)
    (deadline : Deadline)
    : Except Error Outcome × Database :=
  match faults.atBegin with
  | some error => (.error error, store)
  | none =>
      match stageAll faults store.space operations (store.begin, {}) with
      | (transaction, .error error) =>
          (.error error, { store with committed := transaction.rollback })
      | (transaction, .ok outcome) =>
          if deadline = .passed then
            (.error (.backendUnavailable .deadlinePassed),
              { store with committed := transaction.rollback })
          else (.ok outcome, { store with committed := transaction.commit })

/-- Whether a batch over an engine that may fail is answered after its deadline. -/
def overrunsUnless (faults : Faults) (store : Database) (operations : List Operation)
    : Deadline → Bool
  | .unlimited | .ahead => false
  | .duringCommit => (store.executeUnless faults operations .duringCommit).1.isOk
  | .passed => true

/-- However far a transaction comes, its rollback leaves what it began with, by induction over the
operations.
-/
theorem rollback_stageAll (faults : Faults) (space : Namespace) (operations : List Operation)
    (state : Transaction × Outcome)
    : (stageAll faults space operations state).1.rollback = state.1.committed := by
  induction operations generalizing state with
  | nil => rfl
  | cons operation rest ih =>
      rw [stageAll]
      cases faults.atOperation state.1 operation with
      | some error => rfl
      | none =>
          cases staged : stage space state operation with
          | error error => rfl
          | ok next => exact (ih next).trans (stage_eq_ok staged).1

/-- Without a fault on the way the operations are staged one after the other. -/
theorem stageAll_eq_ok {faults : Faults} {space : Namespace} {operations : List Operation}
    {state : Transaction × Outcome} {transaction : Transaction} {outcome : Outcome}
    (staged : stageAll faults space operations state = (transaction, .ok outcome))
    : operations.foldlM (stage space) state = .ok (transaction, outcome) := by
  induction operations generalizing state with
  | nil => cases staged; rfl
  | cons operation rest ih =>
      rw [stageAll] at staged
      cases fault : faults.atOperation state.1 operation with
      | some error => rw [fault] at staged; cases staged
      | none =>
          rw [fault] at staged
          cases first : stage space state operation with
          | error error => rw [first] at staged; cases staged
          | ok next =>
              rw [first] at staged
              rw [List.foldlM_cons, first]
              exact ih staged

/-- Without faults of the engine staging fails as the store fails. -/
theorem stageAll_none (space : Namespace) (operations : List Operation)
    (state : Transaction × Outcome)
    : (stageAll {} space operations state).2
      = (operations.foldlM (stage space) state).map (·.2) := by
  induction operations generalizing state with
  | nil => rfl
  | cons operation rest ih =>
      rw [stageAll, List.foldlM_cons]
      cases stage space state operation with
      | error error => rfl
      | ok next => exact ih next

/-- A batch that fails leaves the store as it was. -/
theorem store_of_executeUnless_error {faults : Faults} {store left : Database}
    {operations : List Operation} {deadline : Deadline} {error : Error}
    (failed : store.executeUnless faults operations deadline = (.error error, left))
    : left = store := by
  have rolledBack := rollback_stageAll faults store.space operations (store.begin, {})
  unfold executeUnless at failed
  cases begun : faults.atBegin with
  | some error => rw [begun] at failed; cases failed; rfl
  | none =>
      rw [begun] at failed
      dsimp only at failed
      cases staged : stageAll faults store.space operations (store.begin, {}) with
      | mk transaction result =>
          rw [staged] at failed rolledBack
          cases result with
          | error error => cases failed; rw [rolledBack]; rfl
          | ok outcome =>
              dsimp only at failed
              split at failed
              · cases failed; rw [rolledBack]; rfl
              · cases failed

/-- A batch that succeeds has found its deadline ahead, and succeeds as without faults. -/
theorem execute_of_executeUnless_ok {faults : Faults} {store left : Database}
    {operations : List Operation} {deadline : Deadline} {outcome : Outcome}
    (succeeded : store.executeUnless faults operations deadline = (.ok outcome, left))
    : deadline ≠ .passed ∧ store.execute operations deadline = (.ok outcome, left) := by
  unfold executeUnless at succeeded
  cases begun : faults.atBegin with
  | some error => rw [begun] at succeeded; cases succeeded
  | none =>
      rw [begun] at succeeded
      dsimp only at succeeded
      cases staged : stageAll faults store.space operations (store.begin, {}) with
      | mk transaction result =>
          rw [staged] at succeeded
          cases result with
          | error error => cases succeeded
          | ok outcome =>
              dsimp only at succeeded
              split at succeeded
              next => cases succeeded
              next inTime =>
                cases succeeded
                refine ⟨inTime, ?_⟩
                rw [execute, stageAll_eq_ok staged]
                exact if_neg inTime

/-- Over an engine that does not fail, batches are executed as the store executes them. -/
theorem executeUnless_none (store : Database) (operations : List Operation) (deadline : Deadline)
    : store.executeUnless {} operations deadline = store.execute operations deadline := by
  have answer := stageAll_none store.space operations (store.begin, {})
  have rolledBack : (stageAll {} store.space operations (store.begin, {})).1.rollback
      = store.committed :=
    rollback_stageAll {} store.space operations (store.begin, {})
  simp only [executeUnless, execute]
  cases staged : stageAll {} store.space operations (store.begin, {}) with
  | mk transaction result =>
      rw [staged] at answer rolledBack
      have rolledBack : transaction.rollback = store.committed := rolledBack
      cases result with
      | ok outcome => simp only [stageAll_eq_ok staged, rolledBack]
      | error error =>
          cases run : operations.foldlM (stage store.space) (store.begin, {}) with
          | ok state => rw [run] at answer; cases answer
          | error error => rw [run] at answer; cases answer; simp only [rolledBack]

end Database

-----------------------------------------------------------------------------------------
-- Operations one by one
-----------------------------------------------------------------------------------------

section

variable {S : Type} [TableStore S]

/-- A store after some operations, each in a batch of its own. -/
def TableStore.oneByOne (store : S) (operations : List Operation) : S :=
  operations.foldl (fun store operation => (execute store [operation] .unlimited).2) store

/-- The operations of a batch that is worked to its end one by one do to a row what the batch does,
by induction over them.
-/
theorem stored?_oneByOne [HasPlainForm S] {store : S} {operations : List Operation}
    (free : (plain store).isStuck operations = false) (table id : String)
    : stored? (TableStore.oneByOne store operations) table id
      = (operations.filter
            (·.concerns (plain store).space ((plain store).space.qualify table) id)).foldl
          (fun row operation => operation.after (kind store).row row)
          (stored? store table id) := by
  induction operations generalizing store with
  | nil => rfl
  | cons operation rest ih =>
      obtain ⟨own, others⟩ := Bool.or_eq_false_iff.mp free
      have ahead : (kind store).drops .unlimited = false := by cases kind store <;> rfl
      have run : executes store [operation] .unlimited = true := by
        have worked : (plain store).isStuck [operation] = false := (Bool.or_false _).trans own
        simp [executes, worked, ahead]
      obtain ⟨sameKind, sameSpace⟩ := kind_execute store [operation] .unlimited
      -- The rest meets the rows that it meets in the batch; what was reported makes no difference.
      have freeRest : (plain (TableStore.execute store [operation] .unlimited).2).isStuck rest
          = false := by
        have sameKind : (plain (TableStore.execute store [operation] .unlimited).2).kind
            = kind store := sameKind
        rw [PlainStore.isStuck, sameKind, sameSpace, rows_execute run]
        refine (PlainStore.getStuck_congr (kind store) _ rest ?_).trans others
        rfl
      have first := stored?_execute store [operation] .unlimited table id
      rw [if_pos run] at first
      refine (ih freeRest).trans ?_
      rw [sameKind, sameSpace, first, ← List.foldl_append, ← List.filter_append]
      rfl

end

-----------------------------------------------------------------------------------------
-- Cycles that may fail
-----------------------------------------------------------------------------------------

/-- The sink of a store whose engine may fail. -/
def BatchSink.overFaults (faults : Faults) : BatchSink Database :=
  fun operations deadline store =>
    let (answer, left) := store.executeUnless faults operations deadline
    (if store.overrunsUnless faults operations deadline then none else some answer, left)

theorem BatchSink.overFaults_none : overFaults {} = BatchSink.store := by
  funext operations deadline store
  have overruns : store.overrunsUnless {} operations deadline
      = store.overruns operations deadline := by
    cases deadline with
    | duringCommit => exact congrArg (·.1.isOk) (store.executeUnless_none operations _)
    | unlimited | ahead | passed => rfl
  simp only [overFaults, overruns, Database.executeUnless_none]
  rfl

/-- One cycle with what decides how it fares: what it drains when it finds the store in a state, how
much time it has, and the faults that it meets.
-/
structure Handover where
  drain : Database → List Operation
  timeout : Duration
  deadline : Deadline
  faults : Faults := {}

/-- What a cycle came to: what it reports, and whether its batch was committed. -/
structure HandoverReport where
  cycle : Handover
  result : Except Error Outcome
  committed : Bool

/-- What a sequence of cycles came to, and the store after the last one. -/
structure Handovers where
  reports : List HandoverReport
  store : Database

namespace Database

/-- Drains and flushes one cycle. -/
def handOver (store : Database) (cycle : Handover) : Flush Database :=
  Pipeline.flush ⟨cycle.timeout, cycle.drain store⟩ (.overFaults cycle.faults) cycle.deadline store

/-- Whether the batch of a cycle is committed, if there is anything to commit. -/
def commits (store : Database) (cycle : Handover) : Bool :=
  (cycle.drain store).isEmpty
    || (store.executeUnless cycle.faults (cycle.drain store) cycle.deadline).1.isOk

/-- Drains and flushes some cycles one after the other. -/
def handOverAll (store : Database) : List Handover → Handovers
  | [] => ⟨[], store⟩
  | cycle :: rest =>
      let flush := store.handOver cycle
      let later := flush.state.handOverAll rest
      ⟨⟨cycle, flush.result, store.commits cycle⟩ :: later.reports, later.store⟩

/-- A cycle leaves what executing its batch leaves, and answers with what that answers, unless the
answer is late.
-/
theorem handOver_eq {store : Database} {cycle : Handover} (drained : cycle.drain store ≠ [])
    : let executed := store.executeUnless cycle.faults (cycle.drain store) cycle.deadline
      (store.handOver cycle).state = executed.2
      ∧ (store.handOver cycle).result
        = if store.overrunsUnless cycle.faults (cycle.drain store) cycle.deadline then
            .error (.backendUnavailable (.flushTimedOut cycle.timeout))
          else executed.1 := by
  have pending : (cycle.drain store).isEmpty = false := List.isEmpty_eq_false_iff.mpr drained
  simp only [handOver, Pipeline.flush, pending, BatchSink.overFaults, Bool.false_eq_true, if_false,
    true_and]
  split <;> rfl

/-- A cycle whose batch is not committed leaves the store as it was. -/
theorem state_handOver {store : Database} {cycle : Handover}
    (failed : store.commits cycle = false)
    : (store.handOver cycle).state = store := by
  obtain ⟨pending, failed⟩ := Bool.or_eq_false_iff.mp failed
  rw [(handOver_eq (List.isEmpty_eq_false_iff.mp pending)).1]
  cases run : store.executeUnless cycle.faults (cycle.drain store) cycle.deadline with
  | mk answer left =>
      cases answer with
      | ok outcome => rw [run] at failed; cases failed
      | error error => exact store_of_executeUnless_error run

/-- A cycle reports what became of its batch, but for one whose deadline passes during the commit.
-/
theorem reports_handOver (store : Database) (cycle : Handover)
    : ((store.handOver cycle).result.isOk = true → store.commits cycle = true)
      ∧ (cycle.deadline ≠ .duringCommit →
        (store.handOver cycle).result.isOk = store.commits cycle)
      ∧ (cycle.deadline = .duringCommit → cycle.drain store ≠ [] → store.commits cycle = true →
        (store.handOver cycle).result
          = .error (.backendUnavailable (.flushTimedOut cycle.timeout))) := by
  by_cases drained : cycle.drain store = []
  · have nothing : (store.handOver cycle).result = .ok {} := by
      simp [handOver, Pipeline.flush, drained]
    have committed : store.commits cycle = true := by simp [commits, drained]
    rw [nothing, committed]
    exact ⟨fun _ => rfl, fun _ => rfl, fun _ some => absurd drained some⟩
  · have committed : store.commits cycle
        = (store.executeUnless cycle.faults (cycle.drain store) cycle.deadline).1.isOk := by
      rw [commits, List.isEmpty_eq_false_iff.mpr drained, Bool.false_or]
    obtain ⟨_, result⟩ := handOver_eq drained
    rw [result, committed]
    cases when : cycle.deadline with
    | unlimited | ahead => exact ⟨id, fun _ => rfl, fun overtaken => by cases overtaken⟩
    | duringCommit =>
        cases run : (store.executeUnless cycle.faults (cycle.drain store) .duringCommit).1 with
        | ok outcome => simp [overrunsUnless, run, Except.isOk, Except.toBool]
        | error error => simp [overrunsUnless, run, Except.isOk, Except.toBool]
    | passed =>
        cases run : store.executeUnless cycle.faults (cycle.drain store) .passed with
        | mk answer left =>
            cases answer with
            | ok outcome => exact absurd rfl (execute_of_executeUnless_ok run).1
            | error error => simp [overrunsUnless, Except.isOk, Except.toBool]

/-- A sequence of cycles comes to what those among them come to whose batches are committed, by
induction over the cycles.
-/
theorem handOverAll_committed (store : Database) (cycles : List Handover)
    : let committed := (store.handOverAll cycles).reports.filter (·.committed)
      store.handOverAll (committed.map (·.cycle))
        = ⟨committed, (store.handOverAll cycles).store⟩ := by
  induction cycles generalizing store with
  | nil => rfl
  | cons cycle rest ih =>
      rw [handOverAll]
      dsimp only
      cases succeeds : store.commits cycle with
      | true =>
          rw [List.filter_cons_of_pos rfl, List.map_cons, handOverAll, ih, succeeds]
      | false =>
          rw [List.filter_cons_of_neg Bool.false_ne_true, state_handOver succeeds]
          exact ih store

/-- Every cycle of a sequence reports what became of its batch, but for those whose deadlines pass
during their commits, by induction over the cycles.
-/
theorem reports_handOverAll (store : Database) (cycles : List Handover)
    : ∀ report ∈ (store.handOverAll cycles).reports,
        (report.result.isOk = true → report.committed = true)
        ∧ (report.cycle.deadline ≠ .duringCommit → report.result.isOk = report.committed) := by
  induction cycles generalizing store with
  | nil => exact fun _ member => nomatch member
  | cons cycle rest ih =>
      intro report member
      rcases List.mem_cons.mp member with rfl | later
      · obtain ⟨success, inTime, _⟩ := store.reports_handOver cycle
        exact ⟨success, inTime⟩
      · exact ih _ report later

/-- A batch fails if a row that it has to read cannot be read, or if its deadline has passed, and is
carried out else.
-/
theorem result_execute (store : Database) (operations : List Operation) (deadline : Deadline)
    : (store.execute operations deadline).1
      = if store.plain.isStuck operations then .error .undecodable
        else if deadline = .passed then .error (.backendUnavailable .deadlinePassed)
        else .ok (store.plain.applyAll operations).2 := by
  refine (HasPlainForm.execute_eq store operations deadline).1.trans ?_
  have drops : store.plain.kind.drops deadline = true ↔ deadline = .passed := decide_eq_true_iff
  change (store.plain.execute operations deadline).1 = _
  simp only [PlainStore.execute, drops]
  split
  · rfl
  · split <;> rfl

/-- An insert of a row that is absent is accepted in time. -/
theorem execute_insert {store : Database} {table id : String}
    (absent : TableStore.row? store table id = .ok none) (document : Document)
    {deadline : Deadline} (inTime : deadline ≠ .passed)
    : let made := store.execute [⟨.insert, table, id, document⟩] deadline
      made.1 = .ok ⟨1, []⟩ ∧ TableStore.row? made.2 table id = (read document).map some := by
  have timely : (kind store).drops deadline = false := decide_eq_false inTime
  have free := row?_eq_ok_none_iff.mp absent
  obtain ⟨answer, stored⟩ := execute_insert_of_absent timely free document
  refine ⟨answer, (row?_eq_stored? _ table id).trans ((congrArg PlainStore.read stored).trans ?_)⟩
  change PlainStore.read (some document.reread?) = _
  unfold read
  cases document.reread? <;> rfl

/-- A batch that is committed leaves the rows that its operations leave one by one. -/
theorem row?_of_executeUnless_ok {faults : Faults} {store left : Database}
    {operations : List Operation} {deadline : Deadline} {outcome : Outcome}
    (succeeded : store.executeUnless faults operations deadline = (.ok outcome, left))
    (table id : String)
    : TableStore.row? left table id
      = TableStore.row? (TableStore.oneByOne store operations) table id := by
  obtain ⟨_, executed⟩ := execute_of_executeUnless_ok succeeded
  have run : executes store operations deadline = true := by
    rw [← isOk_execute]
    exact congrArg (·.1.isOk) executed
  have free : (HasPlainForm.plain store).isStuck operations = false := by
    simpa using ((Bool.and_eq_true _ _).mp run).1
  have row := stored?_execute store operations deadline table id
  rw [if_pos run, ← stored?_oneByOne free] at row
  rw [row?_eq_stored?, row?_eq_stored?, ← row]
  exact congrArg (fun left => PlainStore.read (stored? left table id))
    (congrArg Prod.snd executed).symm

/-- Batches are all or nothing. A batch that fails, at any operation or for its deadline, leaves
every row of every table, and one that succeeds does to the rows what its operations do one by one;
without faults of the engine this is how the store executes them. A sequence of cycles thus comes to
what the cycles whose batches are committed come to without the others, and an insert that was lost
with one of these can be made up for. A cycle reports whether its batch is committed unless its
deadline passes during the commit: such a cycle reports that the time is over, and its operations
show up all the same.
-/
theorem batches_all_or_nothing (store : Database)
    : (∀ (operations : List Operation) (deadline : Deadline),
        store.executeUnless {} operations deadline = store.execute operations deadline)
      ∧ (∀ (faults : Faults) (operations : List Operation) (deadline : Deadline) (error : Error)
          (left : Database),
        store.executeUnless faults operations deadline = (.error error, left) →
        ∀ table id, TableStore.row? left table id = TableStore.row? store table id)
      ∧ (∀ (operations : List Operation) (deadline : Deadline),
        (store.execute operations deadline).1
          = if store.plain.isStuck operations then .error .undecodable
            else if deadline = .passed then .error (.backendUnavailable .deadlinePassed)
            else .ok (store.plain.applyAll operations).2)
      ∧ (∀ (faults : Faults) (operations : List Operation) (deadline : Deadline)
          (outcome : Outcome) (left : Database),
        store.executeUnless faults operations deadline = (.ok outcome, left) →
        deadline ≠ .passed ∧ outcome = (store.plain.applyAll operations).2
          ∧ ∀ table id, TableStore.row? left table id
            = TableStore.row? (TableStore.oneByOne store operations) table id)
      ∧ (∀ cycle : Handover, cycle.deadline = .passed → cycle.drain store ≠ [] →
        (store.handOver cycle).result.isOk = false ∧ store.commits cycle = false)
      ∧ (∀ cycles : List Handover,
        let committed := (store.handOverAll cycles).reports.filter (·.committed)
        store.handOverAll (committed.map (·.cycle))
            = ⟨committed, (store.handOverAll cycles).store⟩
          ∧ ∀ report ∈ (store.handOverAll cycles).reports,
            (report.result.isOk = true → report.committed = true)
            ∧ (report.cycle.deadline ≠ .duringCommit → report.result.isOk = report.committed))
      ∧ (∀ (cycle : Handover) (table id : String) (document : Document) (deadline : Deadline),
        (store.handOver cycle).result.isOk = false → cycle.deadline ≠ .duringCommit →
        TableStore.row? store table id = .ok none → deadline ≠ .passed →
        let made := (store.handOver cycle).state.execute [⟨.insert, table, id, document⟩] deadline
        made.1 = .ok ⟨1, []⟩ ∧ TableStore.row? made.2 table id = (read document).map some)
      ∧ ∀ cycle : Handover, cycle.deadline = .duringCommit → cycle.drain store ≠ [] →
        store.commits cycle = true →
        (store.handOver cycle).result
            = .error (.backendUnavailable (.flushTimedOut cycle.timeout))
          ∧ ∀ table id, TableStore.row? (store.handOver cycle).state table id
            = TableStore.row? (TableStore.oneByOne store (cycle.drain store)) table id := by
  refine ⟨store.executeUnless_none,
    fun faults operations deadline error left failed table id => ?_, store.result_execute,
    fun faults operations deadline outcome left succeeded => ?_,
    fun cycle late drained => ?_,
    fun cycles => ⟨store.handOverAll_committed cycles, store.reports_handOverAll cycles⟩,
    fun cycle table id document deadline failed inTime absent ahead => ?_,
    fun cycle late drained committed => ⟨(store.reports_handOver cycle).2.2 late drained committed,
      fun table id => ?_⟩⟩
  · rw [store_of_executeUnless_error failed]
  · obtain ⟨inTime, executed⟩ := execute_of_executeUnless_ok succeeded
    have answer := store.result_execute operations deadline
    rw [executed, if_neg inTime] at answer
    refine ⟨inTime, ?_, row?_of_executeUnless_ok succeeded⟩
    split at answer
    · cases answer
    · exact Except.ok.inj answer
  · obtain ⟨_, inTime, _⟩ := store.reports_handOver cycle
    have reports := inTime (by simp [late])
    rw [reports, and_self]
    cases run : store.executeUnless cycle.faults (cycle.drain store) cycle.deadline with
    | mk answer left =>
        cases answer with
        | ok outcome => exact absurd late (execute_of_executeUnless_ok run).1
        | error error => simp [commits, run, drained, Except.isOk, Except.toBool]
  · obtain ⟨_, reports, _⟩ := store.reports_handOver cycle
    rw [state_handOver ((reports inTime).symm.trans failed)]
    exact execute_insert absent document ahead
  · rw [(handOver_eq drained).1]
    cases run : store.executeUnless cycle.faults (cycle.drain store) cycle.deadline with
    | mk answer left =>
        cases answer with
        | ok outcome => exact row?_of_executeUnless_ok run table id
        | error error =>
            simp [commits, run, drained, Except.isOk, Except.toBool] at committed

/-- A late batch with a rejected insert, an update and an insert leaves the row that it would have
updated, and the row that it would have inserted can be inserted afterwards. If the deadline passes
during the commit, the cycle reports a failure as well, but the row is there and an insert of it is
rejected.
-/
theorem batches_all_or_nothing_overtaken_mixed_batch
    : let row (number : Int) : Document := .ofList [("n", .int number)]
      let store : Database := (execute {} [⟨.insert, "t", "a", row 1⟩] .unlimited).2
      let cycle (deadline : Deadline) : Handover :=
        { drain := fun _ => [⟨.insert, "t", "a", row 2⟩, ⟨.update, "t", "a", row 3⟩,
            ⟨.insert, "t", "b", row 4⟩], timeout := 0, deadline }
      let again (deadline : Deadline) : Except Error Outcome :=
        ((store.handOver (cycle deadline)).state.execute [⟨.insert, "t", "b", row 5⟩] .ahead).1
      ((store.handOver (cycle .passed)).result.isOk = false ∧ again .passed = .ok ⟨1, []⟩)
      ∧ (store.handOver (cycle .duringCommit)).result.isOk = false
        ∧ (∃ made, TableStore.row? (store.handOver (cycle .duringCommit)).state "t" "b"
          = .ok (some made))
        ∧ again .duringCommit = .ok ⟨0, [⟨"t", "b", .rowExists⟩]⟩ := by
  intro row store cycle again
  obtain ⟨_, _, _, _, tooLate, _, makesUp, overtaken⟩ := batches_all_or_nothing store
  have failed := (tooLate (cycle .passed) rfl (by simp [cycle])).1
  have absent : stored? store "t" "b" = none := by decide +kernel
  have absent := row?_eq_ok_none_iff.mpr absent
  have committed : store.commits (cycle .duringCommit) = true := by decide +kernel
  obtain ⟨timedOut, there⟩ := overtaken (cycle .duringCommit) rfl (by simp [cycle]) committed
  refine ⟨⟨failed, (makesUp (cycle .passed) "t" "b" (row 5) .ahead failed (by decide) absent
    (by decide)).1⟩, by rw [timedOut]; rfl, ?_, ok_of_toOption (by decide +kernel)⟩
  have present : (TableStore.row? (TableStore.oneByOne store ((cycle .duringCommit).drain store))
      "t" "b").toOption.join.isSome = true := by decide +kernel
  obtain ⟨made, found⟩ := Option.isSome_iff_exists.mp present
  exact ⟨made, (there "t" "b").trans (ok_of_toOption (Option.join_eq_some_iff.mp found))⟩

end Database

end Telemetry.Storage
