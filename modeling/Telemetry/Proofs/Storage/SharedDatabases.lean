import Telemetry.Proofs.Results
import Telemetry.Proofs.Storage.BackendEquivalence

/-! Clients that open one database one after the other, each under a namespace. A call acts table
by table: its answer and what it leaves depend on the rows of the tables that it names, and it
changes no others. Names under different namespaces differ unless the name of some table ends in
an underscore and the name of another, so clients notice nothing of those of other namespaces.
-/

namespace Telemetry.Storage

-----------------------------------------------------------------------------------------
-- Names under different namespaces
-----------------------------------------------------------------------------------------

namespace Namespace

def named (text : String) : Namespace :=
  ⟨some text⟩

/-- A fixed namespace stays as it is. -/
theorem eq_of_fix_named {text other : String} {space : Namespace}
    (h : (named text).fix other = .ok space)
    : space = named text := by
  simp only [fix, named] at h
  split at h
  · exact (Except.ok.inj h).symm
  · cases h

/-- The characters that stand before the names of tables in the namespace of a text. -/
def lead (text : String) : List Char :=
  if text = "" then [] else text.toList ++ ['_']

theorem toList_qualify (text table : String)
    : ((named text).qualify table).toList = lead text ++ table.toList := by
  by_cases empty : text = ""
  · simp [qualify, qualifier?, named, lead, empty, Option.filter]
  · simp [qualify, qualifier?, named, lead, empty, Option.filter]

theorem lead_inj {first second : String} : lead first = lead second ↔ first = second := by
  constructor
  · intro same
    unfold lead at same
    split at same <;> split at same
    · simp_all
    · simp at same
    · simp at same
    · exact String.toList_inj.mp (List.append_cancel_right same)
  · exact congrArg lead

/-- The part of a lead from some point on ends in the underscore, unless nothing is left. -/
theorem underscore_suffix_of_lead {text : String} {front back : List Char}
    (h : lead text = front ++ back) (nonempty : back ≠ [])
    : ['_'] <:+ back := by
  have ends : ['_'] <:+ lead text := by
    by_cases empty : text = ""
    · simp [lead, empty, nonempty] at h
    · simp [lead, empty]
  exact List.suffix_of_suffix_length_le ends ⟨front, h.symm⟩
    (List.length_pos_iff.mpr nonempty)

/-- No table has a name that ends in an underscore and the name of a table. -/
def Unambiguous (tables : List String) : Prop :=
  ∀ longer ∈ tables, ∀ shorter ∈ tables, ¬('_' :: shorter.toList) <:+ longer.toList

instance (tables : List String) : Decidable (Unambiguous tables) :=
  inferInstanceAs (Decidable (∀ longer ∈ tables, ∀ shorter ∈ tables, _))

/-- If one of two leads is a part of the other, the tables behind them tell them apart. -/
theorem Unambiguous.eq_of_longer_lead {tables : List String} (h : Unambiguous tables)
    {text longer shorter : String} {front back : List Char} (hl : longer ∈ tables)
    (hs : shorter ∈ tables) (lead_eq : lead text = front ++ back)
    (rest : longer.toList = back ++ shorter.toList)
    : back = [] := by
  by_cases empty : back = []
  · exact empty
  · obtain ⟨inner, rfl⟩ := underscore_suffix_of_lead lead_eq empty
    refine absurd ⟨inner, ?_⟩ (h longer hl shorter hs)
    rw [rest, List.append_assoc, List.singleton_append]

/-- Unambiguous tables have different names unless both their namespaces and they are the same. -/
theorem Unambiguous.qualify_inj {tables : List String} (h : Unambiguous tables)
    {first second table other : String} (ht : table ∈ tables) (ho : other ∈ tables)
    : (named first).qualify table = (named second).qualify other
      ↔ first = second ∧ table = other := by
  constructor
  · intro same
    rw [← String.toList_inj, toList_qualify, toList_qualify] at same
    have nothing : ∃ back, back = []
        ∧ (lead second = lead first ++ back ∧ table.toList = back ++ other.toList
          ∨ lead first = lead second ++ back ∧ other.toList = back ++ table.toList) := by
      rcases List.append_eq_append_iff.mp same with ⟨back, leads, rest⟩ | ⟨back, leads, rest⟩
      · exact ⟨back, h.eq_of_longer_lead ht ho leads rest, .inl ⟨leads, rest⟩⟩
      · exact ⟨back, h.eq_of_longer_lead ho ht leads rest, .inr ⟨leads, rest⟩⟩
    obtain ⟨_, rfl, ⟨leads, rest⟩ | ⟨leads, rest⟩⟩ := nothing
    · rw [List.append_nil, lead_inj] at leads
      exact ⟨leads.symm, String.toList_inj.mp rest⟩
    · rw [List.append_nil, lead_inj] at leads
      exact ⟨leads, (String.toList_inj.mp rest).symm⟩
  · rintro ⟨rfl, rfl⟩
    rfl

end Namespace

-----------------------------------------------------------------------------------------
-- Transactions over other tables
-----------------------------------------------------------------------------------------

namespace Write

/-- The rows of a table after a write, which may be one to another table. -/
def onTable (name : String) (write : Write) (table : KeyMap Document) : KeyMap Document :=
  if write.table = name then
    match write.document with
    | some document => table.insert write.id document
    | none => table.erase write.id
  else table

theorem rows_carryOver (tables : Tables) (write : Write) (name : String)
    : Tables.rows (write.carryOver tables) name = write.onTable name (tables.rows name) := by
  unfold carryOver onTable
  by_cases here : write.table = name
  · subst here
    cases write.document <;> simp [Tables.rows, KeyMap.get?_insert]
  · have other : name ≠ write.table := fun same => here same.symm
    cases write.document <;> simp [Tables.rows, KeyMap.get?_insert, here, other]

end Write

namespace Transaction

/-- The transaction as it is over other committed tables. -/
def rebased (transaction : Transaction) (tables : Tables) : Transaction :=
  { transaction with committed := tables }

/-- A commit carries the writes over to a table, the earliest first. -/
theorem rows_commit (transaction : Transaction) (name : String)
    : transaction.commit.rows name
      = transaction.writes.foldr (Write.onTable name) (transaction.committed.rows name) := by
  have carried (writes : List Write) (tables : Tables)
      : Tables.rows (writes.foldl Write.carryOver tables) name
        = writes.foldl (fun table write => write.onTable name table) (tables.rows name) := by
    induction writes generalizing tables with
    | nil => rfl
    | cons write rest ih => rw [List.foldl_cons, ih, Write.rows_carryOver]; rfl
  have opened : (transaction.opened.foldl Tables.ensure transaction.committed).rows
      = transaction.committed.rows := by
    generalize transaction.committed = tables
    induction transaction.opened generalizing tables with
    | nil => rfl
    | cons name rest ih => rw [List.foldl_cons, ih, Tables.rows_ensure]
  rw [commit, carried, opened, List.foldl_reverse]

/-- A commit leaves the tables alone to which nothing is written. -/
theorem rows_commit_of_forall {transaction : Transaction} {name : String}
    (others : ∀ write ∈ transaction.writes, write.table ≠ name)
    : transaction.commit.rows name = transaction.committed.rows name := by
  obtain ⟨committed, opened, writes⟩ := transaction
  rw [rows_commit]
  induction writes with
  | nil => rfl
  | cons write rest ih =>
      have earlier := ih fun write member => others write (List.mem_cons_of_mem _ member)
      rw [List.foldr_cons, earlier, Write.onTable, if_neg (others write List.mem_cons_self)]

/-- Removing rows of a table writes to this table alone, by induction over the rows. -/
theorem foldl_remove_eq (name : String) {α : Type} (doomed : List (String × α))
    (transaction : Transaction)
    : let last := doomed.foldl (fun acc entry => acc.remove name entry.1) transaction
      last.committed = transaction.committed
      ∧ ∀ write ∈ last.writes, write ∈ transaction.writes ∨ write.table = name := by
  induction doomed generalizing transaction with
  | nil => exact ⟨rfl, fun _ => .inl⟩
  | cons entry rest ih =>
      obtain ⟨committed, writes⟩ := ih (transaction.remove name entry.1)
      refine ⟨committed, fun write member => (writes write member).elim (fun earlier => ?_) .inr⟩
      rcases List.mem_cons.mp earlier with rfl | before
      · exact .inr rfl
      · exact .inl before

/-- Over tables with the same rows of a table, a commit leaves the same rows of it. -/
theorem rows_commit_rebased {transaction : Transaction} {tables : Tables} {name : String}
    (same : tables.rows name = transaction.committed.rows name)
    : (transaction.rebased tables).commit.rows name = transaction.commit.rows name := by
  rw [rows_commit, rows_commit, rebased, same]

end Transaction

namespace Database

variable {space : Namespace} {tables : Tables}

/-- An operation reads and writes the rows of its table alone. -/
theorem stage_rebased {state : Transaction × Outcome} {operation : Operation}
    (same : tables.rows (space.qualify operation.table)
      = state.1.committed.rows (space.qualify operation.table))
    : stage space (state.1.rebased tables, state.2) operation
      = (stage space state operation).map fun next => (next.1.rebased tables, next.2) := by
  have row : ((state.1.rebased tables).openTable (space.qualify operation.table)).row?
        (space.qualify operation.table) operation.id
      = (state.1.openTable (space.qualify operation.table)).row?
        (space.qualify operation.table) operation.id := by
    simp only [Transaction.row?, Transaction.openTable, Transaction.rebased, Tables.row?_eq, same]
  unfold stage
  simp only [row]
  cases (state.1.openTable (space.qualify operation.table)).row?
      (space.qualify operation.table) operation.id with
  | none => cases operation.kind <;> rfl
  | some row =>
      cases operation.kind with
      | insert => rfl
      | update => cases unread : read row <;> simp only [unread] <;> rfl

/-- A batch reads and writes the rows of its tables alone, by induction over its operations. -/
theorem foldlM_stage_rebased {operations : List Operation} {state : Transaction × Outcome}
    (same : ∀ operation ∈ operations, tables.rows (space.qualify operation.table)
      = state.1.committed.rows (space.qualify operation.table))
    : operations.foldlM (stage space) (state.1.rebased tables, state.2)
      = (operations.foldlM (stage space) state).map
          fun next => (next.1.rebased tables, next.2) := by
  induction operations generalizing state with
  | nil => rfl
  | cons operation rest ih =>
      rw [List.foldlM_cons, List.foldlM_cons, stage_rebased (same operation List.mem_cons_self)]
      cases staged : stage space state operation with
      | error error => rfl
      | ok next =>
          refine ih fun other member => ?_
          rw [(stage_eq_ok staged).1]
          exact same other (List.mem_cons_of_mem _ member)

/-- A batch starts from the committed tables and writes to its own tables, by induction over its
operations.
-/
theorem writes_foldlM_stage {operations : List Operation} {state last : Transaction × Outcome}
    (staged : operations.foldlM (stage space) state = .ok last)
    : last.1.committed = state.1.committed
      ∧ ∀ write ∈ last.1.writes, write ∈ state.1.writes
        ∨ ∃ operation ∈ operations, write.table = space.qualify operation.table := by
  induction operations generalizing state with
  | nil => cases staged; exact ⟨rfl, fun _ => .inl⟩
  | cons operation rest ih =>
      obtain ⟨next, first, more⟩ := bind_eq_ok.mp (List.foldlM_cons.symm.trans staged)
      obtain ⟨committed, writes⟩ := ih more
      refine ⟨committed.trans (stage_eq_ok first).1, fun write member => ?_⟩
      rcases writes write member with earlier | ⟨other, listed, named⟩
      · rcases (stage_eq_ok first).2 write earlier with before | named
        · exact .inl before
        · exact .inr ⟨operation, List.mem_cons_self, named⟩
      · exact .inr ⟨other, List.mem_cons_of_mem _ listed, named⟩

end Database

-----------------------------------------------------------------------------------------
-- Calls act table by table
-----------------------------------------------------------------------------------------

def Call.tables : Call → List String
  | fixNamespace _ => []
  | install table => [table]
  | row table _ => [table]
  | deleteRange table _ _ _ => [table]
  | execute operations _ => operations.map (·.table)

def Call.after {S : Type} [TableStore S] (store : S) (calls : List Call) : S :=
  calls.foldl (fun store call => (call.run store).2) store

namespace Database

/-- Whether two databases hold the same rows under some names. -/
def Agree (names : List String) (first second : Database) : Prop :=
  ∀ name ∈ names, first.committed.rows name = second.committed.rows name

variable {names : List String} {text : String} {first second store : Database}

/-- A batch under some names is answered from the rows under these, and does the same to them
whatever other rows there are.
-/
theorem execute_congr (agree : first.Agree names second) (spaces : first.space = second.space)
    {operations : List Operation}
    (h : ∀ operation ∈ operations, first.space.qualify operation.table ∈ names)
    (deadline : Deadline)
    : (first.execute operations deadline).1 = (second.execute operations deadline).1
      ∧ (first.execute operations deadline).2.Agree names
        (second.execute operations deadline).2 := by
  have start : ∀ operation ∈ operations, second.committed.rows (first.space.qualify operation.table)
      = ((first.begin, {}) : Transaction × Outcome).1.committed.rows
        (first.space.qualify operation.table) :=
    fun operation member => (agree _ (h operation member)).symm
  have run := foldlM_stage_rebased start
  unfold execute
  rw [← spaces, show second.begin = first.begin.rebased second.committed from rfl, run]
  cases staged : operations.foldlM (stage first.space) (first.begin, {}) with
  | error error => exact ⟨rfl, agree⟩
  | ok last =>
      by_cases late : deadline = .passed
      · simp only [Except.map, late, if_true, true_and]
        exact agree
      · simp only [Except.map, late, if_false, true_and]
        refine fun name listed => (Transaction.rows_commit_rebased ?_).symm
        rw [(writes_foldlM_stage staged).1]
        exact (agree name listed).symm

theorem deleteRange_congr (agree : first.Agree names second) (spaces : first.space = second.space)
    {table : String} (h : first.space.qualify table ∈ names) (column : String)
    (least greatest : Int)
    : (first.deleteRange table column least greatest).1
        = (second.deleteRange table column least greatest).1
      ∧ (first.deleteRange table column least greatest).2.Agree names
        (second.deleteRange table column least greatest).2 := by
  unfold deleteRange
  dsimp only
  rw [← spaces, ← agree _ h]
  split
  · exact ⟨rfl, agree⟩
  · next rows _ =>
    refine ⟨rfl, fun name listed => ?_⟩
    have removed : (rows.filter fun entry => columnInRange entry.2 column least greatest).foldl
          (fun acc entry => acc.remove (first.space.qualify table) entry.1)
          (second.begin.openTable (first.space.qualify table))
        = Transaction.rebased ((rows.filter fun entry =>
            columnInRange entry.2 column least greatest).foldl
          (fun acc entry => acc.remove (first.space.qualify table) entry.1)
          (first.begin.openTable (first.space.qualify table))) second.committed := by
      have start : second.begin.openTable (first.space.qualify table)
          = (first.begin.openTable (first.space.qualify table)).rebased second.committed := rfl
      rw [start]
      exact List.foldl_hom (Transaction.rebased · second.committed) fun _ _ => rfl
    rw [removed]
    refine (Transaction.rows_commit_rebased ?_).symm
    rw [(Transaction.foldl_remove_eq _ _ _).1]
    exact (agree name listed).symm

/-- Creating a table leaves the rows of all tables. -/
theorem rows_install (store : Database) (table name : String)
    : (TableStore.install store table).2.committed.rows name = store.committed.rows name :=
  Transaction.rows_commit_of_forall (List.forall_mem_nil _)

/-- A call under some names is answered from the rows under these, and does the same to them
whatever other rows there are.
-/
theorem run_congr (agree : first.Agree names second) (spaces : first.space = second.space)
    {call : Call} (h : ∀ table ∈ call.tables, first.space.qualify table ∈ names)
    : (call.run first).1 = (call.run second).1
      ∧ (call.run first).2.Agree names (call.run second).2 := by
  cases call with
  | fixNamespace other =>
      simp only [Call.run, TableStore.fixNamespace, TableStore.tableNamespace, spaces]
      cases second.space.fix other <;> exact ⟨rfl, agree⟩
  | install table =>
      exact ⟨rfl, fun name listed =>
        (rows_install first table name).trans
          ((agree name listed).trans (rows_install second table name).symm)⟩
  | row table id =>
      have here := agree _ (h table List.mem_cons_self)
      refine ⟨?_, agree⟩
      simp only [Call.run, TableStore.row?, Tables.row?_eq, here, ← spaces]
  | deleteRange table column least greatest =>
      obtain ⟨answer, left⟩ := deleteRange_congr agree spaces (h table List.mem_cons_self) column
        least greatest
      exact ⟨congrArg Answer.deleted answer, left⟩
  | execute operations deadline =>
      obtain ⟨answer, left⟩ := execute_congr agree spaces
        (fun operation member => h operation.table (List.mem_map_of_mem member)) deadline
      exact ⟨congrArg Answer.executed answer, left⟩

/-- A call under other names leaves the rows under some names as they are. -/
theorem agree_run {call : Call}
    (h : ∀ table ∈ call.tables, store.space.qualify table ∉ names)
    : (call.run store).2.Agree names store := by
  intro name listed
  have apart {table : String} (member : table ∈ call.tables)
      : store.space.qualify table ≠ name :=
    fun same => h table member (same ▸ listed)
  cases call with
  | fixNamespace other =>
      simp only [Call.run, TableStore.fixNamespace, TableStore.tableNamespace]
      cases store.space.fix other <;> rfl
  | install table => exact rows_install store table name
  | row table id => rfl
  | deleteRange table column least greatest =>
      simp only [Call.run, TableStore.deleteRange, deleteRange, Prod.map_snd, id_eq]
      split
      · rfl
      · refine (Transaction.rows_commit_of_forall fun write member => ?_).trans ?_
        · rcases (Transaction.foldl_remove_eq _ _ _).2 write member with none | named
          · exact absurd none List.not_mem_nil
          · rw [named]
            exact apart List.mem_cons_self
        · rw [(Transaction.foldl_remove_eq _ _ _).1]
          rfl
  | execute operations deadline =>
      simp only [Call.run, TableStore.execute, execute, Prod.map_snd, id_eq]
      cases staged : operations.foldlM (stage store.space) (store.begin, {}) with
      | error error => rfl
      | ok last =>
          obtain ⟨committed, writes⟩ := writes_foldlM_stage staged
          by_cases late : deadline = .passed
          · simp [late]
          · simp only [late, if_false]
            refine (Transaction.rows_commit_of_forall fun write member => ?_).trans ?_
            · rcases writes write member with none | ⟨operation, listed, named⟩
              · exact absurd none List.not_mem_nil
              · rw [named]
                exact apart (List.mem_map_of_mem listed)
            · rw [committed]
              rfl

/-- No call changes a namespace that is fixed. -/
theorem space_run (fixed : store.space = .named text) (call : Call)
    : (call.run store).2.space = .named text := by
  cases call with
  | fixNamespace other =>
      simp only [Call.run, TableStore.fixNamespace, TableStore.tableNamespace, fixed]
      cases outcome : (Namespace.named text).fix other with
      | ok space => exact Namespace.eq_of_fix_named outcome
      | error error => exact fixed
  | install table => exact fixed
  | row table id => exact fixed
  | deleteRange table column first last =>
      simp only [Call.run, TableStore.deleteRange, deleteRange]
      split <;> exact fixed
  | execute operations deadline =>
      simp only [Call.run, TableStore.execute, execute]
      split
      · exact fixed
      · split <;> exact fixed

/-- Calls under some names are answered from the rows under these, and do the same to them whatever
other rows there are, by induction over the calls.
-/
theorem answers_congr (agree : first.Agree names second) (fixed : first.space = .named text)
    (other : second.space = .named text) {calls : List Call}
    (h : ∀ call ∈ calls, ∀ table ∈ call.tables, (Namespace.named text).qualify table ∈ names)
    : Call.answers first calls = Call.answers second calls
      ∧ (Call.after first calls).Agree names (Call.after second calls) := by
  induction calls generalizing first second with
  | nil => exact ⟨rfl, agree⟩
  | cons call rest ih =>
      obtain ⟨answer, left⟩ := run_congr agree (fixed.trans other.symm)
        (fixed ▸ h call List.mem_cons_self)
      obtain ⟨later, leftLater⟩ := ih left (space_run fixed call) (space_run other call)
        fun next member => h next (List.mem_cons_of_mem _ member)
      exact ⟨by rw [Call.answers, Call.answers, answer, later], leftLater⟩

/-- Calls under other names leave the rows under some names as they are, by induction over the
calls.
-/
theorem agree_after (fixed : store.space = .named text) {calls : List Call}
    (h : ∀ call ∈ calls, ∀ table ∈ call.tables, (Namespace.named text).qualify table ∉ names)
    : (Call.after store calls).Agree names store := by
  induction calls generalizing store with
  | nil => exact fun _ _ => rfl
  | cons call rest ih =>
      have first := agree_run (fixed ▸ h call List.mem_cons_self)
      have later := ih (space_run fixed call) fun next member =>
        h next (List.mem_cons_of_mem _ member)
      exact fun name listed => (later name listed).trans (first name listed)

end Database

-----------------------------------------------------------------------------------------
-- Clients one after the other
-----------------------------------------------------------------------------------------

/-- A client of a database: the namespace that it fixes on opening it, and its calls. -/
structure Client where
  space : String
  calls : List Call

namespace Client

variable {tables : List String} {clients : List Client} {space : String}

def opened (client : Client) (store : Database) : Database :=
  (TableStore.fixNamespace store.reopen client.space).2

/-- The answers that clients get one after the other, each with the namespace of the client. -/
def answers (store : Database) : List Client → List (String × List Answer)
  | [] => []
  | client :: rest =>
      let opened := client.opened store
      (client.space, Call.answers opened client.calls)
        :: answers (Call.after opened client.calls) rest

def after (store : Database) (clients : List Client) : Database :=
  clients.foldl (fun store client => Call.after (client.opened store) client.calls) store

/-- The client names tables of a list alone. -/
def Uses (client : Client) (tables : List String) : Prop :=
  ∀ call ∈ client.calls, ∀ table ∈ call.tables, table ∈ tables

/-- The names of tables in the namespace of a text. -/
def names (space : String) (tables : List String) : List String :=
  tables.map (Namespace.named space).qualify

/-- The tables of a client have names in its namespace. -/
theorem Uses.mem_names {client : Client} (uses : client.Uses tables)
    : ∀ call ∈ client.calls, ∀ table ∈ call.tables,
        (Namespace.named client.space).qualify table ∈ names client.space tables :=
  fun call member table listed => List.mem_map_of_mem (uses call member table listed)

/-- The tables of a client have no names in another namespace. -/
theorem Uses.notMem_names {client : Client} (uses : client.Uses tables)
    (unambiguous : Namespace.Unambiguous tables) (other : client.space ≠ space)
    : ∀ call ∈ client.calls, ∀ table ∈ call.tables,
        (Namespace.named client.space).qualify table ∉ names space tables := by
  intro call member table listed within
  obtain ⟨its, known, same⟩ := List.mem_map.mp within
  have apart := (unambiguous.qualify_inj known (uses call member table listed)).mp same
  exact other apart.1.symm

/-- A client gets the same answers from databases with the same rows in its namespace, and leaves
the same rows there.
-/
theorem Uses.visit_congr {client : Client} (uses : client.Uses tables) {first second : Database}
    (same : first.Agree (names client.space tables) second)
    : Call.answers (client.opened first) client.calls
        = Call.answers (client.opened second) client.calls
      ∧ (Call.after (client.opened first) client.calls).Agree (names client.space tables)
        (Call.after (client.opened second) client.calls) := by
  have opened : (client.opened first).Agree (names client.space tables) (client.opened second) :=
    same
  exact Database.answers_congr opened rfl rfl uses.mem_names

/-- A client leaves the rows in another namespace as they are. -/
theorem Uses.agree_visit {client : Client} (uses : client.Uses tables)
    (unambiguous : Namespace.Unambiguous tables) (other : client.space ≠ space)
    (store : Database)
    : (Call.after (client.opened store) client.calls).Agree (names space tables) store :=
  Database.agree_after rfl (uses.notMem_names unambiguous other)

/-- From databases with the same rows in a namespace its clients get the same answers with and
without the other clients, and leave the same rows there, by induction over the clients: one of
the namespace keeps the databases alike there, and another one changes nothing there.
-/
theorem answers_filter (unambiguous : Namespace.Unambiguous tables)
    (uses : ∀ client ∈ clients, client.Uses tables) {first second : Database}
    (same : first.Agree (names space tables) second)
    : (answers first clients).filter (·.1 = space)
        = answers second (clients.filter (·.space = space))
      ∧ (after first clients).Agree (names space tables)
        (after second (clients.filter (·.space = space))) := by
  induction clients generalizing first second with
  | nil => exact ⟨rfl, same⟩
  | cons client rest ih =>
      have here := uses client List.mem_cons_self
      have others : ∀ next ∈ rest, next.Uses tables :=
        fun next member => uses next (List.mem_cons_of_mem client member)
      by_cases own : client.space = space
      · subst own
        obtain ⟨alike, left⟩ := here.visit_congr same
        simpa [answers, after, alike] using ih others left
      · have visited := here.agree_visit unambiguous own first
        have left : (Call.after (client.opened first) client.calls).Agree (names space tables)
            second :=
          fun name listed => (visited name listed).trans (same name listed)
        simpa [answers, after, own] using ih others left

end Client

end Telemetry.Storage
