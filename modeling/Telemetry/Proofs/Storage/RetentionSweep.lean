import Telemetry.Proofs.Storage.TransactionRows
import Telemetry.Storage.TableSet
import Mathlib.Algebra.GroupWithZero.Nat

/-! What a sweep does to the rows of a store. Each table all of whose rows can be read loses the rows
whose buckets lie in the resolved range, any other one keeps its rows and fails, and all tables
together lose as many rows as the sweep reports.
-/

namespace Telemetry.Storage

-----------------------------------------------------------------------------------------
-- Counting rows
-----------------------------------------------------------------------------------------

namespace Rows

/-- The number of rows of the tables of some names. -/
def count (rows : Rows) (names : List String) : Nat :=
  (names.map fun name => (rows name).size).sum

theorem count_set_of_notMem (rows : Rows) {name : String} {names : List String}
    (table : KeyMap Row) (h : name ∉ names)
    : (rows.set name table).count names = rows.count names := by
  unfold count
  congr 1
  refine List.map_congr_left fun other member => ?_
  have ne : other ≠ name := fun same => h (same ▸ member)
  rw [rows.set_other table ne]

/-- Replacing the rows of one table changes the count by the difference of their numbers. -/
theorem count_set (rows : Rows) {name : String} {names : List String} (table : KeyMap Row)
    (distinct : names.Nodup) (h : name ∈ names)
    : (rows.set name table).count names + (rows name).size = rows.count names + table.size := by
  induction names with
  | nil => cases h
  | cons first rest ih =>
      obtain ⟨fresh, others⟩ := List.nodup_cons.mp distinct
      have unfold_count (rows : Rows)
          : rows.count (first :: rest) = (rows first).size + rows.count rest := by
        simp [count]
      rw [unfold_count, unfold_count]
      rcases List.mem_cons.mp h with rfl | later
      · rw [rows.count_set_of_notMem table fresh, rows.set_same]
        omega
      · have ne : first ≠ name := fun same => fresh (same ▸ later)
        rw [rows.set_other table ne]
        have counted := ih others later
        omega

end Rows

-----------------------------------------------------------------------------------------
-- One table
-----------------------------------------------------------------------------------------

/-- Whether a table drops a row when it deletes the history of a range of instants. -/
def Descriptor.drops (descriptor : Descriptor) (startMillis endMillis : Int) (row : Document)
    : Bool :=
  match descriptor.retention with
  | none => false
  | some retention =>
      match retention.granularity.resolveRange? startMillis endMillis with
      | none => false
      | some (first, last) => columnInRange row retention.column first last

/-- Whether a table loses a row when it deletes the history of a range of instants, which it does
not do with a row in it that cannot be read.
-/
def Rows.loses (rows : Rows) (space : Namespace) (startMillis endMillis : Int)
    (descriptor : Descriptor) (row : Row)
    : Bool :=
  PlainStore.isReadable (rows (space.qualify descriptor.table))
    && row.any (descriptor.drops startMillis endMillis)

/-- The rows that are left when a table deletes the history of a range of instants. -/
def Rows.prune (rows : Rows) (space : Namespace) (startMillis endMillis : Int)
    (descriptor : Descriptor)
    : Rows :=
  rows.set (space.qualify descriptor.table)
    ((rows (space.qualify descriptor.table)).filter fun _ row =>
      !rows.loses space startMillis endMillis descriptor row)

/-- Whether a table fails to delete the history of a range of instants: there may be rows to delete,
and a row of the table cannot be read.
-/
def Rows.isBlocked (rows : Rows) (space : Namespace) (startMillis endMillis : Int)
    (descriptor : Descriptor)
    : Bool :=
  (descriptor.retention.bind (·.granularity.resolveRange? startMillis endMillis)).isSome
    && !PlainStore.isReadable (rows (space.qualify descriptor.table))

theorem Rows.prune_of_keeps {rows : Rows} {space : Namespace} {startMillis endMillis : Int}
    {descriptor : Descriptor}
    (h : rows.loses space startMillis endMillis descriptor = fun _ => false)
    : rows.prune space startMillis endMillis descriptor = rows := by
  have all : (rows (space.qualify descriptor.table)).filter (fun _ _ => true)
      = rows (space.qualify descriptor.table) := KeyMap.filter_eq_self fun _ _ _ => rfl
  simp only [prune, h, Bool.not_false, all, set_self]

/-- The number of rows that a table loses in a store. -/
def Rows.dropped (rows : Rows) (space : Namespace) (startMillis endMillis : Int)
    (descriptor : Descriptor)
    : Nat :=
  ((rows (space.qualify descriptor.table)).entries.filter fun entry =>
    rows.loses space startMillis endMillis descriptor entry.2).length

/-- What a table loses and what it keeps are all of its rows. -/
theorem Rows.count_prune (rows : Rows) {space : Namespace} (startMillis endMillis : Int)
    {descriptor : Descriptor} {names : List String} (distinct : names.Nodup)
    (h : space.qualify descriptor.table ∈ names)
    : rows.dropped space startMillis endMillis descriptor
        + (rows.prune space startMillis endMillis descriptor).count names
      = rows.count names := by
  have counted := rows.count_set ((rows (space.qualify descriptor.table)).filter fun _ row =>
    !rows.loses space startMillis endMillis descriptor row) distinct h
  have split := (rows (space.qualify descriptor.table)).size_filter_add fun _ row =>
    !rows.loses space startMillis endMillis descriptor row
  simp only [Bool.not_not] at split
  unfold prune dropped
  omega

/-- A table that fails loses no row. -/
theorem Rows.dropped_of_isBlocked {rows : Rows} {space : Namespace} {startMillis endMillis : Int}
    {descriptor : Descriptor}
    (blocked : rows.isBlocked space startMillis endMillis descriptor = true)
    : rows.dropped space startMillis endMillis descriptor = 0 := by
  simp only [isBlocked, Bool.and_eq_true, Bool.not_eq_true'] at blocked
  simp [dropped, loses, blocked.2]

/-- Pruning rows makes none unreadable and removes none that is. -/
theorem Rows.isReadable_prune (rows : Rows) (space : Namespace) (startMillis endMillis : Int)
    (descriptor : Descriptor) (name : String)
    : PlainStore.isReadable (rows.prune space startMillis endMillis descriptor name)
      = PlainStore.isReadable (rows name) := by
  by_cases here : name = space.qualify descriptor.table
  · subst here
    cases readable : PlainStore.isReadable (rows (space.qualify descriptor.table)) with
    | false =>
        have keeps : rows.loses space startMillis endMillis descriptor = fun _ => false := by
          funext row
          simp [loses, readable]
        rw [prune_of_keeps keeps, readable]
    | true =>
        have all := List.all_eq_true.mp readable
        rw [prune, set_same]
        exact List.all_eq_true.mpr fun entry member => all entry (List.mem_filter.mp member).1
  · rw [prune, rows.set_other _ here]

/-- A plain table deletes history by pruning its rows. -/
theorem deleteHistory_plain (store : PlainStore) (descriptor : Descriptor)
    (startMillis endMillis : Int)
    : descriptor.deleteHistory startMillis endMillis store
      = (if store.rows.isBlocked store.space startMillis endMillis descriptor then
          .error .undecodable
        else .ok (store.rows.dropped store.space startMillis endMillis descriptor),
        { store with rows := store.rows.prune store.space startMillis endMillis descriptor }) := by
  have nothing (keeps : store.rows.loses store.space startMillis endMillis descriptor
        = fun _ => false)
      : store.rows.dropped store.space startMillis endMillis descriptor = 0 := by
    simp [Rows.dropped, keeps]
  have noRange (none : descriptor.drops startMillis endMillis = fun _ => false)
      : store.rows.loses store.space startMillis endMillis descriptor = fun _ => false := by
    funext row
    cases row <;> simp [Rows.loses, none]
  cases kept : descriptor.retention with
  | none =>
      have keeps := noRange (by funext row; simp only [Descriptor.drops, kept])
      simp [Descriptor.deleteHistory, Rows.isBlocked, kept, nothing keeps,
        Rows.prune_of_keeps keeps]
  | some retention =>
      cases range : retention.granularity.resolveRange? startMillis endMillis with
      | none =>
          have keeps := noRange (by funext row; simp only [Descriptor.drops, kept, range])
          simp [Descriptor.deleteHistory, Rows.isBlocked, kept, range, nothing keeps,
            Rows.prune_of_keeps keeps]
      | some buckets =>
          obtain ⟨first, last⟩ := buckets
          cases readable
              : PlainStore.isReadable (store.rows (store.space.qualify descriptor.table)) with
          | false =>
              have keeps
                  : store.rows.loses store.space startMillis endMillis descriptor
                    = fun _ => false := by
                funext row
                simp [Rows.loses, readable]
              simp [Descriptor.deleteHistory, TableStore.deleteRange, PlainStore.deleteRange,
                Rows.isBlocked, kept, range, readable, Rows.prune_of_keeps keeps]
          | true =>
              have loses : store.rows.loses store.space startMillis endMillis descriptor
                  = fun row => PlainStore.rowInRange row retention.column first last := by
                funext row
                cases row <;> simp [Rows.loses, readable, Descriptor.drops, kept, range,
                  PlainStore.rowInRange]
              simp [Descriptor.deleteHistory, TableStore.deleteRange, PlainStore.deleteRange,
                Rows.isBlocked, Rows.dropped, Rows.prune, kept, range, readable, loses]

-----------------------------------------------------------------------------------------
-- All tables
-----------------------------------------------------------------------------------------

/-- The rows that are left when tables delete history one after the other. -/
def Rows.pruneAll (rows : Rows) (space : Namespace) (startMillis endMillis : Int)
    (descriptors : List Descriptor)
    : Rows :=
  descriptors.foldl (fun rows => rows.prune space startMillis endMillis) rows

/-- A row is left unless one of the tables under its name loses it, by induction over the tables. -/
theorem Rows.get?_pruneAll (rows : Rows) (space : Namespace) (startMillis endMillis : Int)
    (descriptors : List Descriptor) (name id : String)
    : (rows.pruneAll space startMillis endMillis descriptors name).get? id
      = ((rows name).get? id).filter fun row => descriptors.all fun descriptor =>
          space.qualify descriptor.table ≠ name
            || !rows.loses space startMillis endMillis descriptor row := by
  induction descriptors generalizing rows with
  | nil => cases found : (rows name).get? id <;> simp [pruneAll, found, Option.filter]
  | cons descriptor rest ih =>
      have step : rows.pruneAll space startMillis endMillis (descriptor :: rest)
          = (rows.prune space startMillis endMillis descriptor).pruneAll space startMillis endMillis
            rest := rfl
      -- The other tables lose what they lost before, since the same rows can be read.
      have same : (rows.prune space startMillis endMillis descriptor).loses space startMillis
            endMillis
          = rows.loses space startMillis endMillis := by
        funext other row
        simp only [loses, isReadable_prune]
      rw [step, ih, same]
      by_cases here : name = space.qualify descriptor.table
      · subst here
        rw [prune, set_same, KeyMap.get?_filter, Option.filter_filter]
        simp
      · rw [prune, rows.set_other _ here]
        simp [Ne.symm here]

theorem Rows.isReadable_pruneAll (rows : Rows) (space : Namespace) (startMillis endMillis : Int)
    (descriptors : List Descriptor) (name : String)
    : PlainStore.isReadable (rows.pruneAll space startMillis endMillis descriptors name)
      = PlainStore.isReadable (rows name) := by
  induction descriptors generalizing rows with
  | nil => rfl
  | cons descriptor rest ih =>
      exact (ih (rows.prune space startMillis endMillis descriptor)).trans
        (rows.isReadable_prune space startMillis endMillis descriptor name)

/-- The rows that answers report as gone. -/
def Answers.deleted (answers : Answers) : Nat :=
  (answers.map fun answer => answer.2.toOption.getD 0).sum

/-- The tables of the targets that failed, in the order of the calls. -/
def Answers.failed (answers : Answers) : List String :=
  (answers.filter (!·.2.isOk)).map (·.1)

theorem Answers.deleted_cons (table : String) (answer : Except Error Nat) (later : Answers)
    : deleted ((table, answer) :: later) = answer.toOption.getD 0 + deleted later := by
  simp [deleted]

section

variable (startMillis endMillis : Int)

theorem callAll_cons_plain (store : PlainStore) (descriptor : Descriptor)
    (rest : List Descriptor)
    : let later := Target.callAll startMillis endMillis (rest.map Descriptor.target)
        { store with rows := store.rows.prune store.space startMillis endMillis descriptor }
      Target.callAll startMillis endMillis ((descriptor :: rest).map Descriptor.target) store
        = ((descriptor.table,
            if store.rows.isBlocked store.space startMillis endMillis descriptor then
              .error .undecodable
            else .ok (store.rows.dropped store.space startMillis endMillis descriptor))
            :: later.1, later.2) := by
  have first := deleteHistory_plain store descriptor startMillis endMillis
  simp only [List.map_cons, Target.callAll, Descriptor.target, first]

/-- Plain tables delete history one after the other, by induction over the tables. -/
theorem state_callAll_plain (store : PlainStore) (descriptors : List Descriptor)
    : (Target.callAll startMillis endMillis (descriptors.map Descriptor.target) store).2
      = { store with
          rows := store.rows.pruneAll store.space startMillis endMillis descriptors } := by
  induction descriptors generalizing store with
  | nil => rfl
  | cons descriptor rest ih =>
      rw [callAll_cons_plain]
      exact ih _

/-- Plain tables report all rows that are gone, by induction over the tables. -/
theorem deleted_callAll_plain (store : PlainStore) {descriptors : List Descriptor}
    {names : List String} (distinct : names.Nodup)
    (listed : ∀ descriptor ∈ descriptors, store.space.qualify descriptor.table ∈ names)
    : (Target.callAll startMillis endMillis (descriptors.map Descriptor.target) store).1.deleted
        + (store.rows.pruneAll store.space startMillis endMillis descriptors).count names
      = store.rows.count names := by
  induction descriptors generalizing store with
  | nil => simp [Target.callAll, Answers.deleted, Rows.pruneAll]
  | cons descriptor rest ih =>
      obtain ⟨here, others⟩ := List.forall_mem_cons.mp listed
      have one := store.rows.count_prune startMillis endMillis distinct here
      have more := ih
        { store with rows := store.rows.prune store.space startMillis endMillis descriptor } others
      have step : store.rows.pruneAll store.space startMillis endMillis (descriptor :: rest)
          = (store.rows.prune store.space startMillis endMillis descriptor).pruneAll store.space
              startMillis endMillis rest := rfl
      -- A table that is blocked drops no row, so its answer counts what is gone all the same.
      have answered : (Except.toOption
          (if store.rows.isBlocked store.space startMillis endMillis descriptor then
            .error Error.undecodable
          else .ok (store.rows.dropped store.space startMillis endMillis descriptor))).getD 0
          = store.rows.dropped store.space startMillis endMillis descriptor := by
        split
        next blocked => exact (Rows.dropped_of_isBlocked blocked).symm
        next => rfl
      rw [callAll_cons_plain, Answers.deleted_cons, answered, step]
      dsimp only at more ⊢
      omega

/-- Plain tables fail to delete history by the rows that are there at first, by induction over the
tables.
-/
theorem failed_callAll_plain (store : PlainStore) (descriptors : List Descriptor)
    : (Target.callAll startMillis endMillis (descriptors.map Descriptor.target) store).1.failed
      = (descriptors.filter (store.rows.isBlocked store.space startMillis endMillis)).map
          (·.table) := by
  induction descriptors generalizing store with
  | nil => rfl
  | cons descriptor rest ih =>
      have same : (store.rows.prune store.space startMillis endMillis descriptor).isBlocked
            store.space startMillis endMillis
          = store.rows.isBlocked store.space startMillis endMillis := by
        funext other
        simp only [Rows.isBlocked, Rows.isReadable_prune]
      have later := ih
        { store with rows := store.rows.prune store.space startMillis endMillis descriptor }
      simp only [same] at later
      rw [callAll_cons_plain]
      unfold Answers.failed at later ⊢
      cases blocked : store.rows.isBlocked store.space startMillis endMillis descriptor with
      | true => simpa [blocked, Except.isOk, Except.toBool] using later
      | false => simpa [blocked, Except.isOk, Except.toBool] using later

end

/-- What is true of the answers and the rows of plain tables is true of any store. -/
theorem callAll_eq_plain {S : Type} [TableStore S] [HasPlainForm S] (store : S)
    (descriptors : List Descriptor) (startMillis endMillis : Int)
    : Target.callAll startMillis endMillis (descriptors.map Descriptor.target)
        (HasPlainForm.plain store)
      = Prod.map id HasPlainForm.plain
          (Target.callAll startMillis endMillis (descriptors.map Descriptor.target) store) := by
  induction descriptors generalizing store with
  | nil => rfl
  | cons descriptor rest ih =>
      have first : descriptor.deleteHistory startMillis endMillis (HasPlainForm.plain store)
          = Prod.map id HasPlainForm.plain
              (descriptor.deleteHistory startMillis endMillis store) := by
        unfold Descriptor.deleteHistory
        split
        · rfl
        · split
          · rfl
          · exact HasPlainForm.deleteRange_plain store _ _ _ _
      simp only [List.map_cons, Target.callAll, Descriptor.target] at *
      rw [first]
      simp only [Prod.map_fst, Prod.map_snd, ih]
      rfl

namespace Answers

/-- The number of targets that answered without a failure. -/
def swept (answers : Answers) : Nat :=
  (answers.filter (·.2.isOk)).length

theorem swept_add_failed (answers : Answers)
    : answers.swept + answers.failed.length = answers.length := by
  have split := List.length_eq_countP_add_countP (fun answer : String × Except Error Nat =>
    answer.2.isOk) (l := answers)
  simpa [swept, failed, List.countP_eq_length_filter] using split.symm

/-- Answers add up in a report, by induction over them. -/
theorem foldl_add (answers : Answers) (report : SweepReport)
    : answers.foldl SweepReport.add report
      = { report with
          deleted := report.deleted + answers.deleted
          sweptTables := report.sweptTables + answers.swept
          failedTables := report.failedTables ++ answers.failed } := by
  induction answers generalizing report with
  | nil => simp [deleted, swept, failed]
  | cons answer rest ih =>
      obtain ⟨table, result⟩ := answer
      rw [List.foldl_cons, ih]
      cases result with
      | ok count =>
          simp [SweepReport.add, deleted, swept, failed, Except.toOption, Except.isOk,
            Except.toBool]
          omega
      | error reason =>
          simp [SweepReport.add, deleted, swept, failed, Except.toOption, Except.isOk,
            Except.toBool]

end Answers

end Telemetry.Storage
