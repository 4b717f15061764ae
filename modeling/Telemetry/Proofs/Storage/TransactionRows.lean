import Telemetry.Proofs.Results
import Telemetry.Proofs.Storage.PlainStore

/-! The rows that a transaction would leave by its commit. Reading through a transaction yields
these rows, and every call of the transactional store changes them as the plain form says.
-/

namespace Telemetry.Storage

-----------------------------------------------------------------------------------------
-- The rows of a transaction
-----------------------------------------------------------------------------------------

/-- Carries a write over to rows. -/
def Write.onRows (write : Write) (rows : Rows) : Rows :=
  rows.set write.table
    (match write.document with
    | some document => (rows write.table).insert write.id document.reread?
    | none => (rows write.table).erase write.id)

theorem Write.rowsAs_carryOver (tables : Tables) (write : Write)
    : Tables.rowsAs (write.carryOver tables) Document.reread?
      = write.onRows (tables.rowsAs Document.reread?) := by
  unfold carryOver onRows
  cases write.document with
  | some document => simp only [Tables.rowsAs_insert, KeyMap.mapValues_insert, Tables.rowsAs]
  | none =>
      simp only [Tables.rowsAs_insert, KeyMap.erase, KeyMap.filter_mapValues, Tables.rowsAs]

namespace Transaction

/-- The rows that the commit of a transaction leaves. -/
def rows (transaction : Transaction) : Rows :=
  transaction.writes.foldr Write.onRows (transaction.committed.rowsAs Document.reread?)

theorem rowsAs_foldl_ensure (names : List String) (tables : Tables)
    : (names.foldl Tables.ensure tables).rowsAs Document.reread?
      = tables.rowsAs Document.reread? := by
  induction names generalizing tables with
  | nil => rfl
  | cons name rest ih => rw [List.foldl_cons, ih, Tables.rowsAs_ensure]

/-- A commit carries the writes over, the earliest first. -/
theorem rowsAs_commit (transaction : Transaction)
    : transaction.commit.rowsAs Document.reread? = transaction.rows := by
  have carried (writes : List Write) (tables : Tables)
      : Tables.rowsAs (writes.foldl Write.carryOver tables) Document.reread?
        = writes.foldl (fun rows write => write.onRows rows)
            (tables.rowsAs Document.reread?) := by
    induction writes generalizing tables with
    | nil => rfl
    | cons write rest ih => rw [List.foldl_cons, ih, Write.rowsAs_carryOver]; rfl
  rw [commit, carried, rowsAs_foldl_ensure, List.foldl_reverse]
  rfl

/-- A transaction reads its own writes before the committed tables, by induction over the writes. -/
theorem get?_rows (transaction : Transaction) (name id : String)
    : (transaction.rows name).get? id = (transaction.row? name id).map Document.reread? := by
  obtain ⟨committed, opened, writes⟩ := transaction
  simp only [row?, rows]
  induction writes with
  | nil => exact committed.get?_rowsAs Document.reread? name id
  | cons write rest ih =>
      simp only [List.find?_cons, List.foldr_cons, Write.onRows]
      by_cases here : write.table = name
      · subst here
        rw [Rows.set_same]
        by_cases same : write.id = id
        · cases kept : write.document <;>
            simp [same, kept, KeyMap.get?_insert, KeyMap.get?_erase]
        · have other : id ≠ write.id := fun eq => same eq.symm
          cases write.document <;> simp [same, other, KeyMap.get?_insert, KeyMap.get?_erase, ih]
      · rw [Rows.set_other _ _ (fun eq => here eq.symm)]
        simp [here, ih]

theorem rows_remove (transaction : Transaction) (name id : String)
    : (transaction.remove name id).rows
      = transaction.rows.set name ((transaction.rows name).erase id) :=
  rfl

/-- Removing several rows of a table takes their ids away, by induction over the ids. -/
theorem rows_foldl_remove (name : String) {α : Type} (doomed : List (String × α))
    (transaction : Transaction)
    : (doomed.foldl (fun acc entry => acc.remove name entry.1) transaction).rows
      = transaction.rows.set name
          ((transaction.rows name).filter fun id _ => !(doomed.map (·.1)).contains id) := by
  induction doomed generalizing transaction with
  | nil =>
      have all : (transaction.rows name).filter (fun _ _ => true) = transaction.rows name :=
        KeyMap.filter_eq_self fun _ _ _ => rfl
      simp [all]
  | cons entry rest ih =>
      rw [List.foldl_cons, ih, rows_remove, Rows.set_same, Rows.set_set]
      congr 1
      refine KeyMap.ext_get? fun id => ?_
      simp only [KeyMap.get?_filter, KeyMap.get?_erase, List.map_cons, List.contains_cons]
      by_cases same : id = entry.1
      · cases (transaction.rows name).get? id <;> simp [same, Option.filter]
      · simp [same, beq_eq_false_iff_ne.mpr same]

end Transaction

-----------------------------------------------------------------------------------------
-- The transactional store
-----------------------------------------------------------------------------------------

namespace Database

/-- The plain form of a transactional store. -/
def plain (store : Database) : PlainStore :=
  ⟨.database, store.space, store.committed.rowsAs Document.reread?⟩

/-- Staging leaves the tables that a transaction began with, and adds at most one write, to the
table of the operation.
-/
theorem stage_eq_ok {space : Namespace} {state next : Transaction × Outcome}
    {operation : Operation} (staged : stage space state operation = .ok next)
    : next.1.committed = state.1.committed
      ∧ ∀ write ∈ next.1.writes, write ∈ state.1.writes
        ∨ write.table = space.qualify operation.table := by
  have kept : next.1.committed = state.1.committed ∧ (next.1.writes = state.1.writes
      ∨ ∃ document, next.1.writes = ⟨space.qualify operation.table, operation.id, some document⟩
        :: state.1.writes) := by
    unfold stage at staged
    dsimp only at staged
    split at staged
    · cases staged; exact ⟨rfl, .inl rfl⟩
    · cases staged; exact ⟨rfl, .inr ⟨_, rfl⟩⟩
    · obtain ⟨_, _, made⟩ := bind_eq_ok.mp staged
      cases made
      exact ⟨rfl, .inr ⟨_, rfl⟩⟩
    · cases staged; exact ⟨rfl, .inl rfl⟩
  obtain ⟨committed, same | ⟨document, more⟩⟩ := kept
  · exact ⟨committed, fun write member => .inl (same ▸ member)⟩
  · refine ⟨committed, fun write member => ?_⟩
    rcases List.mem_cons.mp (more ▸ member) with rfl | earlier
    · exact .inr rfl
    · exact .inl earlier

/-- The rows that the commit of a transaction leaves, beside what becomes of the operations. -/
def plainState (state : Transaction × Outcome) : Rows × Outcome :=
  (state.1.rows, state.2)

/-- One operation does to a transaction what it does to the rows of its commit, unless it has to
read a row that cannot be read.
-/
theorem stage_plain (space : Namespace) (state : Transaction × Outcome) (operation : Operation)
    : (stage space state operation).map plainState
      = if operation.isStuck
            (((plainState state).1 (space.qualify operation.table)).get? operation.id) then
          .error .undecodable
        else .ok (PlainStore.apply .database space (plainState state) operation) := by
  obtain ⟨transaction, outcome⟩ := state
  have opened : (transaction.openTable (space.qualify operation.table)).row?
      (space.qualify operation.table) operation.id
        = transaction.row? (space.qualify operation.table) operation.id := rfl
  simp only [PlainStore.apply, stage, Operation.written, Operation.isStuck, BackendKind.row,
    plainState, transaction.get?_rows, opened]
  cases transaction.row? (space.qualify operation.table) operation.id with
  | none => cases operation.kind <;> rfl
  | some row =>
      cases readable : row.reread? with
      | none => cases operation.kind <;> simp [read, readable] <;> rfl
      | some document => cases operation.kind <;> simp [read, readable] <;> rfl

/-- A batch does to a transaction what it does to the rows of its commit, by induction over the
operations.
-/
theorem foldlM_stage_plain (space : Namespace) (operations : List Operation)
    (state : Transaction × Outcome)
    : (operations.foldlM (stage space) state).map plainState
      = if PlainStore.getStuck .database space operations (plainState state) then
          .error .undecodable
        else .ok (operations.foldl (PlainStore.apply .database space) (plainState state)) := by
  induction operations generalizing state with
  | nil => rfl
  | cons operation rest ih =>
      have first := stage_plain space state operation
      rw [List.foldlM_cons, List.foldl_cons, PlainStore.getStuck]
      cases stuck : operation.isStuck
          (((plainState state).1 (space.qualify operation.table)).get? operation.id) with
      | true =>
          rw [stuck, if_pos rfl] at first
          cases staged : stage space state operation with
          | error error => rw [staged] at first; exact first
          | ok next => rw [staged] at first; cases first
      | false =>
          rw [stuck, if_neg Bool.false_ne_true] at first
          cases staged : stage space state operation with
          | error error => rw [staged] at first; cases first
          | ok next =>
              rw [staged] at first
              rw [Bool.false_or, ← Except.ok.inj first]
              exact ih next

/-- Executing a batch acts on the committed rows as on plain ones, whatever its deadline. -/
theorem execute_plain (store : Database) (operations : List Operation) (deadline : Deadline)
    : store.plain.execute operations deadline
      = Prod.map id plain (store.execute operations deadline) := by
  have run : (operations.foldlM (stage store.space) (store.begin, {})).map plainState
      = if store.plain.isStuck operations then .error .undecodable
        else .ok (store.plain.applyAll operations) :=
    foldlM_stage_plain store.space operations (store.begin, {})
  rw [PlainStore.execute, execute]
  cases staged : operations.foldlM (stage store.space) (store.begin, {}) with
  | error error =>
      rw [staged] at run
      split at run
      · next stuck =>
        rw [if_pos stuck, Except.error.inj run]
        rfl
      · cases run
  | ok last =>
      rw [staged] at run
      split at run
      · cases run
      · next free =>
        rw [if_neg free, ← Except.ok.inj run]
        have drops : store.plain.kind.drops deadline = decide (deadline = .passed) := rfl
        rw [drops]
        by_cases late : deadline = .passed
        · simp [late]
        · simp [late, plain, plainState, Transaction.rowsAs_commit]

/-- The rows of a table outside a range are those without the ids that the scan found. -/
theorem filter_scanned {α : Type} (table : KeyMap α) (inRange : α → Bool)
    : (table.filter fun id _ =>
        !((table.entries.filter fun entry => inRange entry.2).map (·.1)).contains id)
      = table.filter fun _ row => !inRange row := by
  refine KeyMap.filter_congr fun id row found => ?_
  have listed := KeyMap.get?_eq_some_iff.mp found
  have scanned : id ∈ (table.entries.filter fun entry => inRange entry.2).map (·.1)
      ↔ inRange row = true := by
    constructor
    · intro member
      obtain ⟨entry, kept, rfl⟩ := List.mem_map.mp member
      obtain ⟨mem, range⟩ := List.mem_filter.mp kept
      exact KeyMap.value_unique mem listed ▸ range
    · intro range
      exact List.mem_map.mpr ⟨(id, row), List.mem_filter.mpr ⟨listed, range⟩, rfl⟩
  by_cases range : inRange row = true <;> simp [scanned, range]

/-- A scan reads every row, and fails at a row that cannot be read. -/
theorem mapM_read (entries : List (String × Document))
    : entries.mapM (fun entry => (read entry.2).map (entry.1, ·))
      = if entries.all (·.2.reread?.isSome) then
          .ok (entries.map fun entry => (entry.1, entry.2.reread))
        else .error .undecodable := by
  induction entries with
  | nil => rfl
  | cons entry rest ih =>
      rw [List.mapM_cons, ih, List.all_cons]
      cases readable : entry.2.reread? with
      | none => simp only [read, readable]; rfl
      | some document =>
          obtain ⟨_, rfl⟩ := Document.reread?_eq_some_iff.mp readable
          have first : read entry.2 = .ok entry.2.reread := by simp only [read, readable]
          rw [first, Option.isSome_some, Bool.true_and]
          split <;> rfl

/-- Scanning and removing a range of rows acts on the committed rows as on plain ones. -/
theorem deleteRange_plain (store : Database) (table column : String) (first last : Int)
    : store.plain.deleteRange table column first last
      = Prod.map id plain (store.deleteRange table column first last) := by
  simp only [PlainStore.deleteRange, deleteRange, mapM_read]
  have readable : PlainStore.isReadable (store.plain.rows (store.plain.space.qualify table))
      = (store.committed.rows (store.space.qualify table)).entries.all (·.2.reread?.isSome) := by
    simp only [PlainStore.isReadable, plain, Tables.rowsAs, KeyMap.mapValues, List.all_map]
    rfl
  rw [readable]
  by_cases all : (store.committed.rows (store.space.qualify table)).entries.all
      (·.2.reread?.isSome) = true
  · have read : ∀ entry ∈ (store.committed.rows (store.space.qualify table)).entries,
        entry.2.reread? = some entry.2.reread := by
      intro entry member
      obtain ⟨document, found⟩ := Option.isSome_iff_exists.mp (List.all_eq_true.mp all entry member)
      obtain ⟨_, rfl⟩ := Document.reread?_eq_some_iff.mp found
      exact found
    -- What the scan finds are the rows of the plain store that lie in the range.
    have scanned : (((store.committed.rows (store.space.qualify table)).entries.map
            fun entry => (entry.1, entry.2.reread)).filter fun entry =>
              columnInRange entry.2 column first last).map (·.1)
        = ((store.plain.rows (store.plain.space.qualify table)).entries.filter fun entry =>
              PlainStore.rowInRange entry.2 column first last).map (·.1) := by
      simp only [plain, Tables.rowsAs, KeyMap.mapValues, List.filter_map, List.map_map]
      refine congrArg _ (List.filter_congr fun entry member => ?_)
      simp only [Function.comp_apply, read entry member]
      rfl
    have count := congrArg List.length scanned
    simp only [List.length_map] at count
    have left := filter_scanned (store.plain.rows (store.plain.space.qualify table)) fun row =>
      PlainStore.rowInRange row column first last
    rw [← scanned] at left
    have start : (store.begin.openTable (store.space.qualify table)).rows = store.plain.rows := rfl
    simp only [if_pos all, count, ← left, Prod.map, id_eq]
    simp only [plain, Transaction.rowsAs_commit, Transaction.rows_foldl_remove, start]
  · simp only [if_neg all]
    rfl

instance : HasPlainForm Database where
  plain := plain
  holds_plain store name id row held document read := by
    rw [plain, Tables.get?_rowsAs] at held
    obtain ⟨written, _, rfl⟩ := Option.map_eq_some_iff.mp held
    obtain ⟨readable, rfl⟩ := Document.reread?_eq_some_iff.mp read
    exact readable.reread
  tableNamespace_plain _ := rfl
  withNamespace_plain _ _ := rfl
  install_plain store table := by
    have created : (store.begin.openTable (store.space.qualify table)).commit.rowsAs
        Document.reread? = store.committed.rowsAs Document.reread? :=
      Transaction.rowsAs_commit _
    simp [TableStore.install, plain, created]
  row?_plain store table id := by
    simp only [TableStore.row?, plain, Tables.get?_rowsAs]
    cases store.committed.row? (store.space.qualify table) id with
    | none => rfl
    | some row =>
        have looked : Option.mapM read (some row) = (read row).map some := rfl
        rw [looked, read, Option.map_some]
        cases row.reread? <;> rfl
  deleteRange_plain := deleteRange_plain
  execute_plain := execute_plain
  overruns_plain store operations deadline := by
    cases deadline with
    | unlimited | ahead | passed => rfl
    | duringCommit =>
        have answer := congrArg (·.1.isOk) (execute_plain store operations .duringCommit)
        refine Eq.trans ?_ answer
        have inTime : store.plain.kind.drops .duringCommit = false := rfl
        have late : store.plain.kind.isLate .duringCommit = true := rfl
        simp only [TableStore.overruns, PlainStore.overruns, PlainStore.execute, inTime, late]
        cases store.plain.isStuck operations <;> rfl

end Database

-----------------------------------------------------------------------------------------
-- Stores of either kind
-----------------------------------------------------------------------------------------

namespace Backend

/-- The plain form of a store of either kind. -/
def plain : Backend → PlainStore
  | memory store => store.plain
  | database store => store.plain

instance : HasPlainForm Backend where
  plain := plain
  holds_plain store name id row held := by
    cases store with
    | memory store => exact HasPlainForm.holds_plain store held
    | database store => exact HasPlainForm.holds_plain store held
  tableNamespace_plain store := by cases store <;> rfl
  withNamespace_plain store space := by cases store <;> rfl
  install_plain store table := by
    cases store with
    | memory store => exact HasPlainForm.install_plain store table
    | database store => exact HasPlainForm.install_plain store table
  row?_plain store table id := by
    cases store with
    | memory store => exact HasPlainForm.row?_plain store table id
    | database store => exact HasPlainForm.row?_plain store table id
  deleteRange_plain store table column first last := by
    cases store with
    | memory store => exact HasPlainForm.deleteRange_plain store table column first last
    | database store => exact HasPlainForm.deleteRange_plain store table column first last
  execute_plain store operations deadline := by
    cases store with
    | memory store => exact HasPlainForm.execute_plain store operations deadline
    | database store => exact HasPlainForm.execute_plain store operations deadline
  overruns_plain store operations deadline := by
    cases store with
    | memory store => exact HasPlainForm.overruns_plain store operations deadline
    | database store => exact HasPlainForm.overruns_plain store operations deadline

end Backend

end Telemetry.Storage
