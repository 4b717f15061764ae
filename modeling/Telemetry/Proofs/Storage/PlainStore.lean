import Telemetry.Proofs.Documents.ReadableDocuments
import Telemetry.Storage.Backend

/-! The table stores reduced to what their calls can tell of them: the rows of the tables, those
that do not exist having none. Operations act on plain rows one after the other, and each store
carries out its calls as its plain form does, which a transaction shows by the rows that its commit
would leave.
-/

namespace Telemetry.Storage

-----------------------------------------------------------------------------------------
-- Tables under one namespace
-----------------------------------------------------------------------------------------

/-- Under one namespace different tables keep different names. -/
theorem Namespace.qualify_inj {space : Namespace} {first second : String}
    : space.qualify first = space.qualify second ↔ first = second := by
  unfold qualify
  cases space.qualifier? with
  | none => rfl
  | some text =>
      constructor
      · intro same
        have chars := congrArg String.toList same
        simpa [String.toList_inj] using chars
      · exact fun same => same ▸ rfl

-----------------------------------------------------------------------------------------
-- Rows and what a call does to them
-----------------------------------------------------------------------------------------

/-- A row by the document that it is read as; a row that cannot be read has none. -/
abbrev Row := Option Document

/-- The rows of tables by the names under which a store keeps them. -/
abbrev Rows := String → KeyMap Row

namespace Rows

def set (rows : Rows) (name : String) (table : KeyMap Row) : Rows :=
  fun other => if other = name then table else rows other

@[simp] theorem set_same (rows : Rows) (name : String) (table : KeyMap Row)
    : rows.set name table name = table :=
  if_pos rfl

theorem set_other (rows : Rows) {name other : String} (table : KeyMap Row)
    (h : other ≠ name)
    : rows.set name table other = rows other :=
  if_neg h

@[simp] theorem set_self (rows : Rows) (name : String) : rows.set name (rows name) = rows := by
  funext other
  by_cases h : other = name
  · subst h; exact rows.set_same _ _
  · exact rows.set_other _ h

@[simp] theorem set_set (rows : Rows) (name : String) (first second : KeyMap Row)
    : (rows.set name first).set name second = rows.set name second := by
  funext other
  by_cases h : other = name <;> simp [set, h]

end Rows

namespace BackendKind

/-- Whether a store of a kind can read a document that it keeps. -/
def Fits : BackendKind → Document → Prop
  | memory, _ => True
  | database, document => document.IsReadable

/-- What a store of a kind gives back of a document that it can read. -/
def kept : BackendKind → Document → Document
  | memory => id
  | database => Document.reread

/-- The row of a document that a store of a kind keeps. -/
def row : BackendKind → Document → Row
  | memory => some
  | database => Document.reread?

/-- Whether a row can be one of a store of a kind. All rows in memory can be read, and whatever is
read of a text can be written and read again.
-/
def Holds : BackendKind → Row → Prop
  | memory, row => row.isSome = true
  | database, row => ∀ document, row = some document → document.IsReadable

variable {kind : BackendKind} {document other : Document}

theorem row_eq_some_iff
    : kind.row document = some other ↔ kind.Fits document ∧ kind.kept document = other := by
  cases kind with
  | memory => simp [row, Fits, kept]
  | database => exact Document.reread?_eq_some_iff

theorem row_of_fits (h : kind.Fits document) : kind.row document = some (kind.kept document) :=
  row_eq_some_iff.mpr ⟨h, rfl⟩

theorem fits_of_isReadable (h : document.IsReadable) : kind.Fits document := by
  cases kind with
  | memory => trivial
  | database => exact h

theorem Fits.kept (h : kind.Fits document) : kind.Fits (kind.kept document) := by
  cases kind with
  | memory => trivial
  | database => exact Document.IsReadable.reread h

theorem Fits.overwrite (hr : kind.Fits document) (hc : kind.Fits other)
    : kind.Fits (overwrite document other) := by
  cases kind with
  | memory => trivial
  | database => exact isReadable_overwrite hr hc

/-- Whether a store of a kind drops a batch for its deadline. -/
def drops : BackendKind → Deadline → Bool
  | memory, _ => false
  | database, deadline => deadline = .passed

/-- Whether a store of a kind answers a batch that it works to its end after its deadline. -/
def isLate : BackendKind → Deadline → Bool
  | memory, _ => false
  | database, deadline => deadline = .passed || deadline = .duringCommit

end BackendKind

namespace Operation

/-- The row of an operation afterwards, or why the operation is rejected. -/
def written (toRow : Document → Row) (operation : Operation) : Option Row → Except Rejection Row
  | none =>
      match operation.kind with
      | .insert => .ok (toRow operation.document)
      | .update => .error .rowMissing
  | some row =>
      match operation.kind with
      | .insert => .error .rowExists
      | .update => .ok (row.bind fun document => toRow (overwrite document operation.document))

/-- Whether an operation has to read a row that cannot be read. -/
def isStuck (operation : Operation) : Option Row → Bool
  | some none => operation.kind = .update
  | _ => false

end Operation

/-- A table store of a kind by its namespace and its rows. -/
structure PlainStore where
  kind : BackendKind
  space : Namespace := {}
  rows : Rows := fun _ => ∅

namespace PlainStore

def apply (kind : BackendKind) (space : Namespace) (state : Rows × Outcome)
    (operation : Operation)
    : Rows × Outcome :=
  let name := space.qualify operation.table
  let table := state.1 name
  match operation.written kind.row (table.get? operation.id) with
  | .ok row => (state.1.set name (table.insert operation.id row), state.2.addApplied)
  | .error reason => (state.1, state.2.addFailed operation reason)

def applyAll (store : PlainStore) (operations : List Operation) : Rows × Outcome :=
  operations.foldl (apply store.kind store.space) (store.rows, {})

/-- Whether one of some operations that are carried out in order has to read a row that cannot be
read.
-/
def getStuck (kind : BackendKind) (space : Namespace)
    : List Operation → Rows × Outcome → Bool
  | [], _ => false
  | operation :: rest, state =>
      operation.isStuck ((state.1 (space.qualify operation.table)).get? operation.id)
        || getStuck kind space rest (apply kind space state operation)

/-- Whether a batch cannot be worked to its end. -/
def isStuck (store : PlainStore) (operations : List Operation) : Bool :=
  getStuck store.kind store.space operations (store.rows, {})

/-- Executes a batch, unless it gets stuck or is dropped for its deadline. -/
def execute (store : PlainStore) (operations : List Operation) (deadline : Deadline)
    : Except Error Outcome × PlainStore :=
  if store.isStuck operations then (.error .undecodable, store)
  else if store.kind.drops deadline then (.error (.backendUnavailable .deadlinePassed), store)
  else
    let (rows, outcome) := store.applyAll operations
    (.ok outcome, { store with rows })

def overruns (store : PlainStore) (operations : List Operation) (deadline : Deadline) : Bool :=
  store.kind.drops deadline || (store.kind.isLate deadline && !store.isStuck operations)

/-- What is read where a row is looked up. -/
def read : Option Row → Except Error (Option Document)
  | none => .ok none
  | some none => .error .undecodable
  | some (some document) => .ok (some document)

def isReadable (table : KeyMap Row) : Bool :=
  table.entries.all (·.2.isSome)

/-- All rows of a table can be read if none is found that cannot. -/
theorem isReadable_iff {table : KeyMap Row}
    : isReadable table = true ↔ ∀ id, table.get? id ≠ some none := by
  unfold isReadable
  rw [List.all_eq_true]
  constructor
  · exact fun all id found => nomatch all (id, none) (KeyMap.get?_eq_some_iff.mp found)
  · intro found entry member
    refine Option.isSome_iff_ne_none.mpr fun unreadable => found entry.1 ?_
    exact KeyMap.get?_eq_some_iff.mpr (unreadable ▸ member)

def rowInRange (row : Row) (column : String) (first last : Int) : Bool :=
  row.any (columnInRange · column first last)

/-- Removes the rows of a table whose column lies in a range and counts them, if all rows of the
table can be read.
-/
def deleteRange (store : PlainStore) (table column : String) (first last : Int)
    : Except Error Nat × PlainStore :=
  let name := store.space.qualify table
  let rows := store.rows name
  if isReadable rows then
    let doomed := rows.entries.filter fun entry => rowInRange entry.2 column first last
    let kept := rows.filter fun _ row => !rowInRange row column first last
    (.ok doomed.length, { store with rows := store.rows.set name kept })
  else (.error .undecodable, store)

instance : TableStore PlainStore where
  backend store := store.kind.name
  tableNamespace := space
  withNamespace store space := { store with space }
  install store _ := (.ok (), store)
  row? store table id := read ((store.rows (store.space.qualify table)).get? id)
  deleteRange := deleteRange
  execute := execute
  overruns := overruns

end PlainStore

-----------------------------------------------------------------------------------------
-- Stores that behave as their plain form
-----------------------------------------------------------------------------------------

/-- A store whose calls answer as those of its plain form do, and leave the store whose plain form
is what they leave of it.
-/
class HasPlainForm (S : Type) [TableStore S] where
  plain : S → PlainStore
  holds_plain (store : S) {name id : String} {row : Row}
    (held : ((plain store).rows name).get? id = some row)
    : (plain store).kind.Holds row
  tableNamespace_plain (store : S)
    : TableStore.tableNamespace (plain store) = TableStore.tableNamespace store
  withNamespace_plain (store : S) (space : Namespace)
    : TableStore.withNamespace (plain store) space = plain (TableStore.withNamespace store space)
  install_plain (store : S) (table : String)
    : TableStore.install (plain store) table
      = Prod.map id plain (TableStore.install store table)
  row?_plain (store : S) (table id : String)
    : TableStore.row? (plain store) table id = TableStore.row? store table id
  deleteRange_plain (store : S) (table column : String) (first last : Int)
    : TableStore.deleteRange (plain store) table column first last
      = Prod.map id plain (TableStore.deleteRange store table column first last)
  execute_plain (store : S) (operations : List Operation) (deadline : Deadline)
    : TableStore.execute (plain store) operations deadline
      = Prod.map id plain (TableStore.execute store operations deadline)
  overruns_plain (store : S) (operations : List Operation) (deadline : Deadline)
    : TableStore.overruns (plain store) operations deadline
      = TableStore.overruns store operations deadline

namespace HasPlainForm

variable {S : Type} [TableStore S] [HasPlainForm S]

def kind (store : S) : BackendKind :=
  (plain store).kind

def tableRows (store : S) (table : String) : KeyMap Row :=
  (plain store).rows ((plain store).space.qualify table)

/-- The row that a store holds under an id of a table. -/
def stored? (store : S) (table id : String) : Option Row :=
  (tableRows store table).get? id

theorem row?_eq_stored? (store : S) (table id : String)
    : TableStore.row? store table id = PlainStore.read (stored? store table id) :=
  (row?_plain store table id).symm

section

variable {store : S} {table id : String}

/-- A store finds no row where it holds none. -/
theorem row?_eq_ok_none_iff
    : TableStore.row? store table id = .ok none ↔ stored? store table id = none := by
  rw [row?_eq_stored?]
  rcases stored? store table id with _ | _ | document <;> simp [PlainStore.read]

/-- A store finds the document of a row that can be read. -/
theorem row?_eq_ok_some_iff {document : Document}
    : TableStore.row? store table id = .ok (some document)
      ↔ stored? store table id = some (some document) := by
  rw [row?_eq_stored?]
  rcases stored? store table id with _ | _ | held <;> simp [PlainStore.read]

/-- A store fails where a row cannot be read. -/
theorem row?_eq_error_iff {error : Error}
    : TableStore.row? store table id = .error error
      ↔ stored? store table id = some none ∧ error = .undecodable := by
  rw [row?_eq_stored?]
  rcases stored? store table id with _ | _ | held <;> simp [PlainStore.read, eq_comm]

/-- What a store reads it could read again. -/
theorem fits_of_stored? {document : Document}
    (held : stored? store table id = some (some document))
    : (kind store).Fits document := by
  have holds := holds_plain store held
  unfold kind
  cases same : (plain store).kind with
  | memory => trivial
  | database =>
      rw [same] at holds
      exact holds document rfl

theorem isReadable_of_memory (inMemory : kind store = .memory) (name : String)
    : PlainStore.isReadable ((plain store).rows name) = true := by
  refine List.all_eq_true.mpr fun entry member => ?_
  have holds := holds_plain store (KeyMap.get?_eq_some_iff.mpr member)
  rw [show (plain store).kind = .memory from inMemory] at holds
  exact holds

end

end HasPlainForm

-----------------------------------------------------------------------------------------
-- Tables by what is read of their documents
-----------------------------------------------------------------------------------------

namespace Tables

/-- The rows of tables, made of their documents. -/
def rowsAs (tables : Tables) (toRow : Document → Row) : Rows :=
  fun name => (tables.rows name).mapValues fun _ => toRow

variable (tables : Tables) (toRow : Document → Row)

theorem rows_ensure (name : String) : (tables.ensure name).rows = tables.rows := by
  funext other
  by_cases h : other = name <;> simp [ensure, rows, KeyMap.get?_insert, h]

theorem rowsAs_ensure (name : String)
    : (tables.ensure name).rowsAs toRow = tables.rowsAs toRow := by
  unfold rowsAs
  rw [rows_ensure]

theorem rowsAs_insert (name : String) (table : KeyMap Document)
    : Tables.rowsAs (tables.insert name table) toRow
      = (tables.rowsAs toRow).set name (table.mapValues fun _ => toRow) := by
  funext other
  by_cases h : other = name <;> simp [rowsAs, rows, Rows.set, KeyMap.get?_insert, h]

/-- A row is looked up among the rows of its table. -/
theorem row?_eq (name id : String) : tables.row? name id = (tables.rows name).get? id := by
  simp only [row?, rows]
  cases tables.get? name <;> simp

theorem get?_rowsAs (name id : String)
    : (tables.rowsAs toRow name).get? id = (tables.row? name id).map toRow := by
  rw [row?_eq, rowsAs, KeyMap.get?_mapValues]

end Tables

-----------------------------------------------------------------------------------------
-- The store in memory
-----------------------------------------------------------------------------------------

namespace Memory

/-- The plain form of a store in memory. -/
def plain (store : Memory) : PlainStore :=
  ⟨.memory, store.space, store.tables.rowsAs some⟩

/-- One operation does to the tables what it does to their rows. -/
theorem apply_plain (space : Namespace) (state : Tables × Outcome) (operation : Operation)
    : PlainStore.apply .memory space (state.1.rowsAs some, state.2) operation
      = (Tables.rowsAs (apply space state operation).1 some, (apply space state operation).2) := by
  obtain ⟨tables, outcome⟩ := state
  simp only [PlainStore.apply, apply, change, Operation.written, BackendKind.row,
    Tables.get?_rowsAs, Tables.row?_eq]
  cases (tables.rows (space.qualify operation.table)).get? operation.id <;>
    cases operation.kind <;>
    simp [Tables.rowsAs_insert, Tables.rowsAs_ensure, KeyMap.mapValues_insert, Tables.rowsAs]

/-- A batch does to the tables what it does to their rows, by induction over the operations. -/
theorem foldl_apply_plain (space : Namespace) (operations : List Operation)
    (state : Tables × Outcome)
    : operations.foldl (PlainStore.apply .memory space) (state.1.rowsAs some, state.2)
      = (Tables.rowsAs (operations.foldl (apply space) state).1 some,
        (operations.foldl (apply space) state).2) :=
  List.foldl_hom (fun state : Tables × Outcome => (state.1.rowsAs some, state.2))
    (fun state operation => (apply_plain space state operation).symm ▸ rfl)

/-- Every row in memory is there to be read. -/
theorem getStuck_plain (space : Namespace) (operations : List Operation)
    (state : Tables × Outcome)
    : PlainStore.getStuck .memory space operations (state.1.rowsAs some, state.2) = false := by
  induction operations generalizing state with
  | nil => rfl
  | cons operation rest ih =>
      rw [PlainStore.getStuck, apply_plain, ih, Tables.get?_rowsAs]
      cases state.1.row? (space.qualify operation.table) operation.id <;> rfl

theorem isReadable_mapValues_some (table : KeyMap Document)
    : PlainStore.isReadable (table.mapValues fun _ => some) = true := by
  refine List.all_eq_true.mpr fun entry member => ?_
  obtain ⟨own, _, rfl⟩ := List.mem_map.mp member
  rfl

/-- Removing a range of rows leaves the others, and the loss of rows is their number. -/
theorem deleteRange_plain (store : Memory) (table column : String) (first last : Int)
    : store.plain.deleteRange table column first last
      = (.ok (store.deleteRange table column first last).1,
        (store.deleteRange table column first last).2.plain) := by
  simp only [PlainStore.deleteRange, plain, deleteRange]
  cases found : store.tables.get? (store.space.qualify table) with
  | none =>
      have noRows : store.tables.rowsAs some (store.space.qualify table) = ∅ := by
        simp [Tables.rowsAs, Tables.rows, found]
        rfl
      have unchanged := Rows.set_self (store.tables.rowsAs some) (store.space.qualify table)
      rw [noRows] at unchanged
      have nothing : PlainStore.isReadable ∅ = true := rfl
      simp only [noRows, nothing, if_true, Prod.mk.injEq, PlainStore.mk.injEq, true_and]
      exact ⟨rfl, unchanged⟩
  | some rows =>
      have theRows : store.tables.rowsAs some (store.space.qualify table)
          = rows.mapValues fun _ => some := by
        simp [Tables.rowsAs, Tables.rows, found]
      have count := rows.size_filter_add fun _ row => !columnInRange row column first last
      simp only [Bool.not_not] at count
      have doomed : ((rows.mapValues fun _ => some).entries.filter fun entry =>
            PlainStore.rowInRange entry.2 column first last).length
          = (rows.entries.filter fun entry => columnInRange entry.2 column first last).length := by
        simp only [KeyMap.mapValues, List.filter_map, List.length_map]
        rfl
      have kept : (rows.mapValues fun _ => some).filter (fun _ row =>
            !PlainStore.rowInRange row column first last)
          = (rows.filter fun _ row => !columnInRange row column first last).mapValues
              fun _ => some :=
        KeyMap.filter_mapValues _ _ _
      simp only [theRows, if_pos (isReadable_mapValues_some rows), doomed, kept,
        Tables.rowsAs_insert, Prod.mk.injEq, Except.ok.injEq, and_true]
      omega

instance : HasPlainForm Memory where
  plain := plain
  holds_plain store name id row held := by
    rw [plain, Tables.get?_rowsAs] at held
    obtain ⟨document, _, rfl⟩ := Option.map_eq_some_iff.mp held
    rfl
  tableNamespace_plain _ := rfl
  withNamespace_plain _ _ := rfl
  install_plain store table := by
    simp [TableStore.install, plain, Tables.rowsAs_ensure]
  row?_plain store table id := by
    simp only [TableStore.row?, plain, Tables.get?_rowsAs]
    cases store.tables.row? (store.space.qualify table) id <;> rfl
  deleteRange_plain store table column first last :=
    deleteRange_plain store table column first last
  execute_plain store operations deadline := by
    have run := foldl_apply_plain store.space operations (store.tables, {})
    have free := getStuck_plain store.space operations (store.tables, {})
    simp [TableStore.execute, PlainStore.execute, PlainStore.applyAll, PlainStore.isStuck,
      BackendKind.drops, plain, execute, run, free]
  overruns_plain _ _ _ := rfl

end Memory

end Telemetry.Storage
