import Telemetry.Proofs.Storage.TransactionRows

/-! The store in memory and the transactional store answer every sequence of calls alike. Both
behave as their plain forms, and two plain stores of the same rows differ only in what they give
back of a document, which is the document itself when its text reads back to it.
-/

namespace Telemetry.Storage

-----------------------------------------------------------------------------------------
-- Calls of a table store and their answers
-----------------------------------------------------------------------------------------

inductive Call where
  | fixNamespace (text : String)
  | install (table : String)
  | row (table id : String)
  | deleteRange (table column : String) (first last : Int)
  | execute (operations : List Operation) (deadline : Deadline)

inductive Answer where
  | done (result : Except Error Unit)
  | row (result : Except Error (Option Document))
  | deleted (result : Except Error Nat)
  | executed (result : Except Error Outcome)

namespace Call

variable {S : Type} [TableStore S]

def run (store : S) : Call → Answer × S
  | fixNamespace text => (TableStore.fixNamespace store text).map .done id
  | install table => (TableStore.install store table).map .done id
  | row table id => (.row (TableStore.row? store table id), store)
  | deleteRange table column first last =>
      (TableStore.deleteRange store table column first last).map .deleted id
  | execute operations deadline =>
      (TableStore.execute store operations deadline).map .executed id

def answers (store : S) : List Call → List Answer
  | [] => []
  | call :: rest => (call.run store).1 :: answers (call.run store).2 rest

variable [HasPlainForm S]

/-- A call answers as it does on the plain form of the store, and leaves that of the store. -/
theorem run_plain (store : S) (call : Call)
    : call.run (HasPlainForm.plain store) = (call.run store).map id HasPlainForm.plain := by
  cases call with
  | fixNamespace text =>
      simp only [run, TableStore.fixNamespace, HasPlainForm.tableNamespace_plain]
      cases (TableStore.tableNamespace store).fix text with
      | ok space => simp [HasPlainForm.withNamespace_plain]
      | error error => rfl
  | install table => simp only [run, HasPlainForm.install_plain]; rfl
  | row table id => simp [run, HasPlainForm.row?_plain]
  | deleteRange table column first last => simp only [run, HasPlainForm.deleteRange_plain]; rfl
  | execute operations deadline => simp only [run, HasPlainForm.execute_plain]; rfl

/-- A sequence of calls is answered as on the plain form, by induction over the calls. -/
theorem answers_plain (store : S) (calls : List Call)
    : answers (HasPlainForm.plain store) calls = answers store calls := by
  induction calls generalizing store with
  | nil => rfl
  | cons call rest ih => simp [answers, run_plain, ih]

end Call

-----------------------------------------------------------------------------------------
-- Documents that their texts read back to
-----------------------------------------------------------------------------------------

/-- The text of a document is read as the document itself. -/
def ReadsBack (document : Document) : Prop :=
  document.reread? = some document

/-- A row that is a document that its text reads back to. -/
def Row.ReadsBack (row : Row) : Prop :=
  ∃ document, row = some document ∧ Storage.ReadsBack document

/-- All rows are documents that their texts read back to. -/
def Rows.ReadBack (rows : Rows) : Prop :=
  ∀ name id row, (rows name).get? id = some row → Row.ReadsBack row

theorem ReadsBack.overwrite {row columns : Document} (hr : ReadsBack row)
    (hc : ReadsBack columns)
    : ReadsBack (overwrite row columns) := by
  obtain ⟨readableRow, sameRow⟩ := Document.reread?_eq_some_iff.mp hr
  obtain ⟨readable, same⟩ := Document.reread?_eq_some_iff.mp hc
  have split := KeyMap.mapValues_insertAll row columns fun _ value => value.reread
  refine Document.reread?_eq_some_iff.mpr ⟨isReadable_overwrite readableRow readable, ?_⟩
  unfold Document.reread at *
  rw [Storage.overwrite, split, sameRow, same]

/-- A kind of store gives back a document that its text reads back to. -/
theorem ReadsBack.row {document : Document} (h : ReadsBack document) (kind : BackendKind)
    : kind.row document = some document := by
  cases kind with
  | memory => rfl
  | database => exact h

theorem Rows.ReadBack.set {rows : Rows} (h : rows.ReadBack) (name : String)
    {table : KeyMap Row} (ht : ∀ id row, table.get? id = some row → Row.ReadsBack row)
    : (rows.set name table).ReadBack := by
  intro other id row found
  by_cases same : other = name
  · subst same
    rw [Rows.set_same] at found
    exact ht id row found
  · rw [Rows.set_other _ _ same] at found
    exact h other id row found

-----------------------------------------------------------------------------------------
-- The kind of a store does not show
-----------------------------------------------------------------------------------------

namespace PlainStore

/-- The store with the rules of a kind. -/
def ofKind (store : PlainStore) (kind : BackendKind) : PlainStore :=
  { store with kind }

/-- An operation that reads back writes a row that does, and the same one in stores of any kind. -/
theorem written_of_readsBack {operation : Operation} {row : Option Row}
    (ho : ReadsBack operation.document) (hr : ∀ held, row = some held → Row.ReadsBack held)
    (kind other : BackendKind)
    : operation.written kind.row row = operation.written other.row row
      ∧ ∀ written, operation.written kind.row row = .ok written → Row.ReadsBack written := by
  cases row with
  | none =>
      simp only [Operation.written, ho.row, true_and]
      intro document written
      cases shape : operation.kind with
      | insert => rw [shape] at written; exact Except.ok.inj written ▸ ⟨_, rfl, ho⟩
      | update => rw [shape] at written; cases written
  | some held =>
      obtain ⟨row, rfl, readsBack⟩ := hr held rfl
      have both := readsBack.overwrite ho
      simp only [Operation.written, Option.bind_some, both.row, true_and]
      intro document written
      cases shape : operation.kind with
      | insert => rw [shape] at written; cases written
      | update => rw [shape] at written; exact Except.ok.inj written ▸ ⟨_, rfl, both⟩

/-- One operation does the same in stores of any kind, and keeps all rows reading back. -/
theorem apply_ofKind {state : Rows × Outcome} {operation : Operation}
    (hs : state.1.ReadBack) (ho : ReadsBack operation.document) (kind other : BackendKind)
    (space : Namespace)
    : apply kind space state operation = apply other space state operation
      ∧ (apply kind space state operation).1.ReadBack := by
  obtain ⟨same, reads⟩ := written_of_readsBack ho
    (fun row => hs (space.qualify operation.table) operation.id row) kind other
  simp only [apply, ← same, true_and]
  cases result : operation.written kind.row
      ((state.1 (space.qualify operation.table)).get? operation.id) with
  | error reason => exact hs
  | ok written =>
      refine hs.set _ ?_
      intro id row found
      rw [KeyMap.get?_insert] at found
      split at found
      · exact Option.some.inj found ▸ reads written result
      · exact hs _ id row found

/-- A batch does the same in stores of any kind, and none of its operations gets stuck, by induction
over the operations.
-/
theorem foldl_apply_ofKind {operations : List Operation} {state : Rows × Outcome}
    (hs : state.1.ReadBack) (ho : ∀ operation ∈ operations, ReadsBack operation.document)
    (kind other : BackendKind) (space : Namespace)
    : operations.foldl (apply kind space) state = operations.foldl (apply other space) state
      ∧ (operations.foldl (apply kind space) state).1.ReadBack
      ∧ getStuck kind space operations state = false := by
  induction operations generalizing state with
  | nil => exact ⟨rfl, hs, rfl⟩
  | cons operation rest ih =>
      obtain ⟨same, reads⟩ := apply_ofKind hs (ho operation List.mem_cons_self) kind other space
      obtain ⟨alike, kept, free⟩ :=
        ih reads fun next member => ho next (List.mem_cons_of_mem _ member)
      refine ⟨by rw [List.foldl_cons, List.foldl_cons, ← same, alike], kept, ?_⟩
      rw [getStuck, free, Bool.or_false]
      cases held : (state.1 (space.qualify operation.table)).get? operation.id with
      | none => rfl
      | some row =>
          obtain ⟨document, rfl, _⟩ := hs _ _ _ held
          rfl

/-- All rows that read back can be read. -/
theorem isReadable_of_readBack {rows : Rows} (h : rows.ReadBack) (name : String)
    : isReadable (rows name) = true := by
  refine List.all_eq_true.mpr fun entry member => ?_
  obtain ⟨document, same, _⟩ := h name entry.1 entry.2 (KeyMap.get?_eq_some_iff.mpr member)
  rw [same]
  rfl

end PlainStore

/-- The call hands over documents that their texts read back to, and its deadline has not
passed.
-/
def Call.Undisturbed : Call → Prop
  | .execute operations deadline =>
      deadline ≠ .passed ∧ ∀ operation ∈ operations, ReadsBack operation.document
  | _ => True

theorem BackendKind.drops_eq_false {deadline : Deadline} (h : deadline ≠ .passed)
    (kind : BackendKind)
    : kind.drops deadline = false := by
  cases kind with
  | memory => rfl
  | database => exact decide_eq_false h

/-- An undisturbed call does the same in stores of any kind, and keeps all rows reading back. -/
theorem PlainStore.run_ofKind {store : PlainStore} {call : Call} (hs : store.rows.ReadBack)
    (hc : call.Undisturbed) (kind : BackendKind)
    : call.run (store.ofKind kind) = (call.run store).map id (·.ofKind kind)
      ∧ (call.run store).2.rows.ReadBack := by
  cases call with
  | fixNamespace text =>
      simp only [Call.run, TableStore.fixNamespace, TableStore.tableNamespace, ofKind]
      cases store.space.fix text with
      | ok space => exact ⟨rfl, hs⟩
      | error error => exact ⟨rfl, hs⟩
  | install table => exact ⟨rfl, hs⟩
  | row table id => exact ⟨rfl, hs⟩
  | deleteRange table column first last =>
      have readable := isReadable_of_readBack hs (store.space.qualify table)
      simp only [Call.run, TableStore.deleteRange, deleteRange, ofKind, readable]
      refine ⟨rfl, hs.set _ ?_⟩
      intro id row found
      rw [KeyMap.get?_filter, Option.filter_eq_some_iff] at found
      exact hs _ id row found.1
  | execute operations deadline =>
      obtain ⟨inTime, reads⟩ := hc
      have start : ((store.rows, {}) : Rows × Outcome).1.ReadBack := hs
      have batch := foldl_apply_ofKind start reads store.kind kind store.space
      have other := foldl_apply_ofKind start reads kind kind store.space
      simp only [Call.run, TableStore.execute, execute, isStuck, applyAll, ofKind,
        BackendKind.drops_eq_false inTime, ← batch.1, batch.2.2, other.2.2]
      exact ⟨rfl, batch.2.1⟩

/-- A sequence of undisturbed calls is answered alike by stores of any kind, by induction over
the calls with the rows reading back throughout.
-/
theorem PlainStore.answers_ofKind {store : PlainStore} {calls : List Call}
    (hs : store.rows.ReadBack) (hc : ∀ call ∈ calls, call.Undisturbed) (kind : BackendKind)
    : Call.answers (store.ofKind kind) calls = Call.answers store calls := by
  induction calls generalizing store with
  | nil => rfl
  | cons call rest ih =>
      obtain ⟨same, reads⟩ := run_ofKind hs (hc call List.mem_cons_self) kind
      have later := ih reads fun next member => hc next (List.mem_cons_of_mem _ member)
      simp only [Call.answers, same, Prod.map_fst, Prod.map_snd, id_eq, later]

/-- Fresh stores of both kinds answer every sequence of undisturbed calls alike: the same rows,
the same outcomes with the same rejections in the same order, and the same numbers of deleted
rows.
-/
theorem memory_answers_eq_database_answers (calls : List Call)
    (undisturbed : ∀ call ∈ calls, call.Undisturbed)
    : Call.answers ({} : Memory) calls = Call.answers ({} : Database) calls := by
  have empty : ({ kind := .memory } : PlainStore).rows.ReadBack := by
    intro name id row found
    simp at found
  rw [← Call.answers_plain ({} : Memory), ← Call.answers_plain ({} : Database)]
  exact (PlainStore.answers_ofKind empty undisturbed .database).symm

/-- A repeated insert, an update without a row, a table that nobody installed and a range that
meets one of two rows, all under a namespace.
-/
theorem memory_answers_eq_database_answers_mixed_batch
    : let row (bucket : Int) : Document := (∅ : Document).insert "time_bucket" (.int bucket)
      let calls : List Call := [
        .fixNamespace "tenant",
        .execute [⟨.insert, "day_cpu", "a", row 20240106⟩, ⟨.insert, "day_cpu", "a", row 1⟩,
          ⟨.update, "day_cpu", "b", row 2⟩, ⟨.insert, "day_cpu", "b", row 20240108⟩] .ahead,
        .deleteRange "day_cpu" "time_bucket" 19700101 20240107,
        .row "day_cpu" "b",
        .deleteRange "hour_cpu" "time_bucket" 0 1]
      (∀ call ∈ calls, call.Undisturbed)
      ∧ Call.answers ({} : Memory) calls = Call.answers ({} : Database) calls := by
  intro row calls
  have readsBack (bucket : Int) : ReadsBack (row bucket) := rfl
  have undisturbed : ∀ call ∈ calls, call.Undisturbed := by
    simp [calls, Call.Undisturbed, readsBack]
  exact ⟨undisturbed, memory_answers_eq_database_answers calls undisturbed⟩

end Telemetry.Storage
