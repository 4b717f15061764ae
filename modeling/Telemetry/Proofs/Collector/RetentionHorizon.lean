import Telemetry.Proofs.Calendar.WindowStarts
import Telemetry.Proofs.Storage.RetentionSweep
import Telemetry.Collector.Archive
import Mathlib.Data.List.Nodup

/-! What a retention sweep of a collector removes: the rows of bucketed tables whose windows have
ended by the first midnight to keep, and nothing else. A table with a row that cannot be read fails
and keeps all of its rows. Sweeps add up to the latest of them.
-/

namespace Telemetry.Storage

-----------------------------------------------------------------------------------------
-- The horizon
-----------------------------------------------------------------------------------------

/-- The first midnight that a sweep keeps rows from: that of the day so many days before the day of
the sweep, which is the last of them, or the first midnight of the calendar.
-/
def cutoff (now : Instant) (ttlDays : Nat) : Int :=
  max (now.dayNumber - (effectiveTtlDays ttlDays - 1 : Nat)) Instant.first.dayNumber * millisPerDay

/-- The cutoff is an instant that is not after the sweep. -/
theorem cutoff_onCalendar (now : Instant) (ttlDays : Nat)
    : -8334601228800000 ≤ cutoff now ttlDays ∧ cutoff now ttlDays ≤ 8210266876799999 := by
  have reached := now.onCalendar
  have first : Instant.first.dayNumber = -96465292 := by decide
  unfold cutoff
  rw [first]
  unfold Instant.dayNumber millisPerDay
  omega

/-- The cutoff as an instant. -/
def horizon (now : Instant) (ttlDays : Nat) : Instant :=
  ⟨cutoff now ttlDays, cutoff_onCalendar now ttlDays⟩

theorem cutoff_mono {now later : Instant} (h : now.millis ≤ later.millis) (ttlDays : Nat)
    : cutoff now ttlDays ≤ cutoff later ttlDays := by
  unfold cutoff Instant.dayNumber millisPerDay
  omega

theorem retentionEnd_eq (now : Instant) (ttlDays : Nat)
    : retentionEnd now ttlDays = cutoff now ttlDays - 1 := rfl

/-- The integer that a row has in a column. -/
def bucket? (row : Document) (column : String) : Option Int :=
  (row.get? column).bind Value.signed64?

/-- What a bucketed table drops up to an instant are the windows from 1970 that lie before the
window of that instant.
-/
theorem drops_iff {descriptor : Descriptor} {column : String} {granularity : Granularity}
    (retention : descriptor.retention = some ⟨column, granularity⟩) (afterEnd : Instant)
    (row : Document)
    : descriptor.drops 0 (afterEnd.millis - 1) row = true
      ↔ granularity.window 0 < granularity.window afterEnd.millis
        ∧ ∃ label, bucket? row column = some label
          ∧ granularity.digits (granularity.window 0) ≤ label
          ∧ label ≤ granularity.digits (granularity.window afterEnd.millis - 1) := by
  simp only [Descriptor.drops, retention, Granularity.resolveRange?_zero]
  by_cases later : granularity.window 0 < granularity.window afterEnd.millis
  · rw [if_pos later]
    unfold bucket?
    cases found : (row.get? column).bind Value.signed64? with
    | none => simp [columnInRange, found]
    | some label => simp [columnInRange, found, later]
  · simp [later]

/-- A row whose window starts in 1970 or later is dropped exactly if the window has ended. -/
theorem drops_iff_ended {descriptor : Descriptor} {column : String} {granularity : Granularity}
    (retention : descriptor.retention = some ⟨column, granularity⟩) (afterEnd : Instant)
    {row : Document} {label : Int} {start : Instant} (bucket : bucket? row column = some label)
    (named : granularity.windowStart? label = some start) (since1970 : 0 ≤ start.millis)
    : descriptor.drops 0 (afterEnd.millis - 1) row = true
      ↔ start.millis + granularity.windowLength start ≤ afterEnd.millis := by
  obtain ⟨same, _⟩ := Granularity.windowStart?_eq_some named
  rw [Granularity.bucket_eq_digits] at same
  have first := granularity.window_mono since1970
  rw [drops_iff retention, ← Granularity.opening_succ named, Granularity.opening_le_iff]
  have digits := granularity.digits_strictMono
  constructor
  · rintro ⟨_, found, read, _, upper⟩
    cases bucket.symm.trans read
    rw [← same, digits.le_iff_le] at upper
    omega
  · intro ended
    refine ⟨by omega, label, bucket, ?_, ?_⟩
    · rw [← same, digits.le_iff_le]
      exact first
    · rw [← same, digits.le_iff_le]
      omega

/-- What is dropped up to an instant is dropped up to every later one. -/
theorem drops_mono {descriptor : Descriptor} {afterEnd later : Instant}
    (h : afterEnd.millis ≤ later.millis) {row : Document}
    (dropped : descriptor.drops 0 (afterEnd.millis - 1) row = true)
    : descriptor.drops 0 (later.millis - 1) row = true := by
  cases retention : descriptor.retention with
  | none => simp [Descriptor.drops, retention] at dropped
  | some kept =>
      obtain ⟨column, granularity⟩ := kept
      obtain ⟨windows, label, read, lower, upper⟩ := (drops_iff retention afterEnd row).mp dropped
      have ordered := granularity.window_mono h
      refine (drops_iff retention later row).mpr ⟨by omega, label, read, lower, ?_⟩
      refine Int.le_trans upper (granularity.digits_strictMono.le_iff_le.mpr ?_)
      omega

end Telemetry.Storage

namespace Telemetry.Collector

open Storage

theorem nodup_tableNames : tableNames.Nodup := by decide

/-- The name of a table tells what it holds and its rules. -/
theorem eq_of_tableName {one two : RecordKind × Descriptor} (h : one ∈ allTables)
    (other : two ∈ allTables) (same : one.2.table = two.2.table)
    : one = two :=
  List.inj_on_of_nodup_map nodup_tableNames h other same

namespace Archive

/-- The tables of an archive are all tables of the collector under their own rules. -/
def HasAllTables {S : Type} (archive : Archive S) : Prop :=
  ∀ table ∈ allTables, ∃ found, archive.tables.get? table.2.table = some found
    ∧ found.descriptor = table.2

theorem hasAllTables_onStore {S : Type} (store : S) (mode : MergeMode)
    : HasAllTables (onStore store mode) := by
  have names : ((allTables.map fun table => (table.2.table,
      (⟨table.1, { descriptor := table.2, mode }⟩ : Table RecordKind.Carrier))).map (·.1)).Nodup :=
    List.map_map ▸ nodup_tableNames
  intro table member
  refine ⟨⟨table.1, { descriptor := table.2, mode }⟩, ?_, rfl⟩
  rw [onStore, KeyMap.get?_ofList names]
  exact KeyMap.lookup_of_mem names (List.mem_map.mpr ⟨table, member, rfl⟩)

section

variable {S : Type} [TableStore S]

theorem targets_eq {archive : Archive S} (h : archive.HasAllTables)
    : TableSet.targets S archive.tables tableNames
      = (allTables.map (·.2)).map Descriptor.target := by
  unfold TableSet.targets tableNames
  rw [List.filterMap_map, List.map_map, ← List.filterMap_eq_map]
  refine List.filterMap_congr fun table member => ?_
  obtain ⟨found, bound, same⟩ := h table member
  simp [bound, same]

/-- An elected sweep calls every table once. -/
theorem sweep_of_elected {archive : Archive S} (h : archive.HasAllTables) {view : Cluster.View}
    {registration : Cluster.Registration} (elected : view.isElected registration = true)
    (ttlDays : Nat) (now : Instant)
    : let run := Target.callAll 0 (cutoff now ttlDays - 1)
        ((allTables.map (·.2)).map Descriptor.target) archive.store
      (archive.sweep view registration ttlDays now).archive = { archive with store := run.2 }
      ∧ (archive.sweep view registration ttlDays now).report
        = ⟨true, cutoff now ttlDays - 1, run.1.deleted, run.1.swept, run.1.failed⟩ := by
  intro run
  have swept : archive.sweep view registration ttlDays now
      = ⟨run.1.foldl SweepReport.add ⟨true, cutoff now ttlDays - 1, 0, 0, []⟩,
          .level .retentionElectionState 1 :: run.1.flatMap measureAnswer,
          { archive with store := run.2 }⟩ := by
    simp only [sweep, Storage.sweep, elected, if_true, targets_eq h, retentionEnd_eq]
    rfl
  rw [swept]
  exact ⟨rfl, by simp [Answers.foldl_add]⟩

theorem HasAllTables.sweep {archive : Archive S} (h : archive.HasAllTables) (view : Cluster.View)
    (registration : Cluster.Registration) (ttlDays : Nat) (now : Instant)
    : (archive.sweep view registration ttlDays now).archive.HasAllTables := h

variable [HasPlainForm S]

open HasPlainForm (plain)

def rows (archive : Archive S) (table : String) : KeyMap Row :=
  HasPlainForm.tableRows archive.store table

theorem row?_eq (archive : Archive S) (table id : String)
    : archive.row? table id = PlainStore.read ((archive.rows table).get? id) :=
  HasPlainForm.row?_eq_stored? archive.store table id

/-- The number of rows in all tables of an archive. -/
def rowCount (archive : Archive S) : Nat :=
  (tableNames.map fun table => (archive.rows table).size).sum

omit [HasPlainForm S] in
/-- Whether all rows of a table can be read. -/
def IsReadable (archive : Archive S) (table : String) : Prop :=
  ∀ id error, archive.row? table id ≠ .error error

theorem isReadable_iff {archive : Archive S} {table : String}
    : archive.IsReadable table ↔ PlainStore.isReadable (archive.rows table) = true := by
  rw [PlainStore.isReadable_iff]
  refine forall_congr' fun id => ⟨fun readable found => ?_, fun held error failed => ?_⟩
  · exact readable .undecodable (HasPlainForm.row?_eq_error_iff.mpr ⟨found, rfl⟩)
  · exact held (HasPlainForm.row?_eq_error_iff.mp failed).1

/-- All rows in memory can be read. -/
theorem isReadable_of_memory {archive : Archive S}
    (inMemory : HasPlainForm.kind archive.store = .memory) (table : String)
    : archive.IsReadable table :=
  isReadable_iff.mpr (HasPlainForm.isReadable_of_memory inMemory _)

/-- Whether a sweep up to an instant drops a row of a table. -/
def drops (table : String) (cut : Int) (row : Document) : Bool :=
  (allTables.map (·.2)).any fun descriptor =>
    descriptor.table = table && descriptor.drops 0 (cut - 1) row

/-- Whether an archive loses a row of a table in a sweep up to an instant. -/
def loses (archive : Archive S) (table : String) (cut : Int) (row : Row) : Bool :=
  PlainStore.isReadable (archive.rows table) && row.any (drops table cut)

section

variable {archive : Archive S} (h : archive.HasAllTables) {view : Cluster.View}
variable {registration : Cluster.Registration} (elected : view.isElected registration = true)
variable (ttlDays : Nat) (now : Instant)

include h elected

/-- What an elected sweep does to the plain form of the store. -/
theorem plain_sweep
    : plain (archive.sweep view registration ttlDays now).archive.store
      = { plain archive.store with
          rows := (plain archive.store).rows.pruneAll (plain archive.store).space 0
            (cutoff now ttlDays - 1) (allTables.map (·.2)) } := by
  have onPlain := state_callAll_plain 0 (cutoff now ttlDays - 1) (plain archive.store)
    (allTables.map (·.2))
  rw [callAll_eq_plain] at onPlain
  rw [(sweep_of_elected h elected ttlDays now).1]
  exact onPlain

/-- A sweep leaves all rows but those that it loses. -/
theorem rows_sweep (table : String)
    : (archive.sweep view registration ttlDays now).archive.rows table
      = (archive.rows table).filter fun _ row =>
          !archive.loses table (cutoff now ttlDays) row := by
  refine KeyMap.ext_get? fun id => ?_
  rw [rows, HasPlainForm.tableRows, plain_sweep h elected, Rows.get?_pruneAll, KeyMap.get?_filter]
  congr 1
  funext row
  -- The tables of this name can or cannot be read alike, so only what they drop tells them apart.
  have one (descriptor : Descriptor)
      : (decide ((plain archive.store).space.qualify descriptor.table
            ≠ (plain archive.store).space.qualify table)
          || !(plain archive.store).rows.loses (plain archive.store).space 0
            (cutoff now ttlDays - 1) descriptor row)
        = !(PlainStore.isReadable (archive.rows table) && row.any fun document =>
            descriptor.table = table && descriptor.drops 0 (cutoff now ttlDays - 1) document) := by
    by_cases same : descriptor.table = table
    · subst same
      cases row <;> simp [Rows.loses, rows, HasPlainForm.tableRows]
    · cases row <;> simp [same, Namespace.qualify_inj]
  simp only [one, loses, ← List.not_any_eq_all_not]
  cases row with
  | none => simp
  | some document => cases PlainStore.isReadable (archive.rows table) <;> simp [drops]

/-- A sweep changes nothing about whether the rows of a table can be read. -/
theorem isReadable_sweep (table : String)
    : PlainStore.isReadable ((archive.sweep view registration ttlDays now).archive.rows table)
      = PlainStore.isReadable (archive.rows table) := by
  rw [rows, HasPlainForm.tableRows, plain_sweep h elected]
  exact Rows.isReadable_pruneAll _ _ _ _ _ _

/-- A sweep reports as many rows as are gone from all tables. -/
theorem count_sweep
    : (archive.sweep view registration ttlDays now).report.deleted
        + (archive.sweep view registration ttlDays now).archive.rowCount
      = archive.rowCount := by
  have left := plain_sweep h elected ttlDays now
  have names : (tableNames.map (plain archive.store).space.qualify).Nodup := by
    refine List.pairwise_map.mpr (nodup_tableNames.imp ?_)
    exact fun ne same => ne (Namespace.qualify_inj.mp same)
  have listed : ∀ descriptor ∈ allTables.map (·.2), (plain archive.store).space.qualify
      descriptor.table ∈ tableNames.map (plain archive.store).space.qualify := by
    intro descriptor member
    obtain ⟨table, inAll, rfl⟩ := List.mem_map.mp member
    exact List.mem_map.mpr ⟨table.2.table, List.mem_map.mpr ⟨table, inAll, rfl⟩, rfl⟩
  have counts (other : Archive S) (space : (plain other.store).space = (plain archive.store).space)
      : other.rowCount = (plain other.store).rows.count
          (tableNames.map (plain archive.store).space.qualify) := by
    simp only [rowCount, rows, HasPlainForm.tableRows, Rows.count, List.map_map, space]
    rfl
  rw [(sweep_of_elected h elected ttlDays now).2, counts _ (by rw [left]),
    counts archive rfl, left]
  have counted := deleted_callAll_plain 0 (cutoff now ttlDays - 1) (plain archive.store) names
    listed
  rwa [callAll_eq_plain] at counted

/-- The tables that fail in a sweep are those that may have rows to lose and have one that cannot be
read.
-/
theorem failedTables_sweep
    : (archive.sweep view registration ttlDays now).report.failedTables
      = ((allTables.map (·.2)).filter fun descriptor =>
          (descriptor.retention.bind
              (·.granularity.resolveRange? 0 (cutoff now ttlDays - 1))).isSome
            && !PlainStore.isReadable (archive.rows descriptor.table)).map (·.table) := by
  have failed := failed_callAll_plain 0 (cutoff now ttlDays - 1) (plain archive.store)
    (allTables.map (·.2))
  rw [callAll_eq_plain] at failed
  rw [(sweep_of_elected h elected ttlDays now).2]
  exact failed

/-- The tables that fail are those with a row that cannot be read and with windows to remove. -/
theorem mem_failedTables_sweep {kind : RecordKind} {descriptor : Descriptor}
    (member : (kind, descriptor) ∈ allTables)
    : descriptor.table ∈ (archive.sweep view registration ttlDays now).report.failedTables
      ↔ ¬archive.IsReadable descriptor.table ∧ ∃ retention first last,
          descriptor.retention = some retention
          ∧ retention.granularity.resolveRange? 0 (cutoff now ttlDays - 1)
            = some (first, last) := by
  rw [failedTables_sweep h elected, isReadable_iff, List.mem_map]
  constructor
  · rintro ⟨other, listed, same⟩
    rw [List.mem_filter, Bool.and_eq_true, Bool.not_eq_true'] at listed
    obtain ⟨⟨table, inAll, rfl⟩, ranged, unreadable⟩ := listed.imp_left List.mem_map.mp
    cases eq_of_tableName inAll member same
    obtain ⟨range, found⟩ := Option.isSome_iff_exists.mp ranged
    obtain ⟨retention, kept, resolved⟩ := Option.bind_eq_some_iff.mp found
    exact ⟨by rw [unreadable]; exact Bool.false_ne_true, retention, range.1, range.2, kept,
      resolved⟩
  · rintro ⟨unreadable, retention, first, last, kept, resolved⟩
    refine ⟨descriptor, List.mem_filter.mpr ⟨List.mem_map_of_mem member, ?_⟩, rfl⟩
    rw [kept, Option.bind_some, resolved, Bool.eq_false_iff.mpr unreadable]
    rfl

theorem row?_sweep (table id : String)
    : (archive.sweep view registration ttlDays now).archive.row? table id
      = PlainStore.read (((archive.rows table).get? id).filter
          fun row => !archive.loses table (cutoff now ttlDays) row) := by
  rw [row?_eq, rows_sweep h elected, KeyMap.get?_filter]

theorem row?_sweep_of_spared {table id : String} {row : Document}
    (stored : archive.row? table id = .ok (some row))
    (spared : archive.loses table (cutoff now ttlDays) (some row) = false)
    : (archive.sweep view registration ttlDays now).archive.row? table id = .ok (some row) := by
  have held : (archive.rows table).get? id = some (some row) :=
    HasPlainForm.row?_eq_ok_some_iff.mp stored
  rw [row?_sweep h elected, held, Option.filter_some, spared]
  rfl

theorem row?_sweep_of_lost {table id : String} {row : Document}
    (stored : archive.row? table id = .ok (some row))
    (lost : archive.loses table (cutoff now ttlDays) (some row) = true)
    : (archive.sweep view registration ttlDays now).archive.row? table id = .ok none := by
  have held : (archive.rows table).get? id = some (some row) :=
    HasPlainForm.row?_eq_ok_some_iff.mp stored
  rw [row?_sweep h elected, held, Option.filter_some, lost]
  rfl

theorem row?_sweep_of_absent {table id : String} (absent : archive.row? table id = .ok none)
    : (archive.sweep view registration ttlDays now).archive.row? table id = .ok none := by
  have none : (archive.rows table).get? id = none := HasPlainForm.row?_eq_ok_none_iff.mp absent
  rw [row?_sweep h elected, none]
  rfl

/-- A table with a row that cannot be read keeps its rows. -/
theorem row?_sweep_of_unreadable {table : String} (unreadable : ¬archive.IsReadable table)
    (id : String)
    : (archive.sweep view registration ttlDays now).archive.row? table id
      = archive.row? table id := by
  have spared (row : Row) : archive.loses table (cutoff now ttlDays) row = false := by
    rw [loses, Bool.eq_false_iff.mpr (mt isReadable_iff.mpr unreadable), Bool.false_and]
  rw [row?_sweep h elected, row?_eq]
  cases (archive.rows table).get? id with
  | none => rfl
  | some row => rw [Option.filter_some, spared]; rfl

end

/-- A table drops what its own descriptor drops, since no other table has its name. -/
theorem drops_eq_of_mem {kind : RecordKind} {descriptor : Descriptor}
    (member : (kind, descriptor) ∈ allTables) (cut : Int) (row : Document)
    : drops descriptor.table cut row = descriptor.drops 0 (cut - 1) row := by
  cases own : descriptor.drops 0 (cut - 1) row with
  | true => exact List.any_eq_true.mpr ⟨descriptor, List.mem_map_of_mem member, by simp [own]⟩
  | false =>
      refine List.any_eq_false.mpr fun other listed => ?_
      obtain ⟨table, inAll, rfl⟩ := List.mem_map.mp listed
      by_cases same : table.2.table = descriptor.table
      · cases eq_of_tableName inAll member same
        simp [own]
      · simp [same]

/-- Rows of tables without retention and rows without a bucket are not dropped. -/
theorem drops_eq_false_of_no_bucket {kind : RecordKind} {descriptor : Descriptor}
    (member : (kind, descriptor) ∈ allTables) {row : Document}
    (unbounded : descriptor.retention = none ∨ bucket? row "time_bucket" = none) (now : Instant)
    (ttlDays : Nat)
    : descriptor.drops 0 (cutoff now ttlDays - 1) row = false := by
  cases kept : descriptor.retention with
  | none => simp [Descriptor.drops, kept]
  | some retention =>
      have column : ∀ table ∈ allTables, ∀ retention, table.2.retention = some retention →
          retention.column = "time_bucket" := by decide
      have named := column _ member retention kept
      obtain ⟨_, granularity⟩ := retention
      cases named
      have none : bucket? row "time_bucket" = none := unbounded.resolve_left (by simp [kept])
      refine Bool.eq_false_iff.mpr fun dropped => ?_
      obtain ⟨_, label, read, _⟩ := (drops_iff kept (horizon now ttlDays) row).mp dropped
      cases none.symm.trans read

/-- What a sweep drops, every later sweep drops. -/
theorem drops_cutoff_mono {table : String} {ttlDays : Nat} {now later : Instant}
    (h : now.millis ≤ later.millis) {row : Document}
    (dropped : drops table (cutoff now ttlDays) row = true)
    : drops table (cutoff later ttlDays) row = true := by
  obtain ⟨descriptor, member, both⟩ := List.any_eq_true.mp dropped
  rw [Bool.and_eq_true] at both
  refine List.any_eq_true.mpr ⟨descriptor, member, ?_⟩
  rw [Bool.and_eq_true]
  refine ⟨both.1, ?_⟩
  exact @drops_mono descriptor (horizon now ttlDays) (horizon later ttlDays)
    (cutoff_mono h ttlDays) row both.2

/-- What an archive loses in a sweep, it loses in every later one. -/
theorem loses_cutoff_mono {archive : Archive S} {table : String} {ttlDays : Nat}
    {now later : Instant} (h : now.millis ≤ later.millis) {row : Row}
    (lost : archive.loses table (cutoff now ttlDays) row = true)
    : archive.loses table (cutoff later ttlDays) row = true := by
  obtain ⟨readable, dropped⟩ := (Bool.and_eq_true _ _).mp lost
  cases row with
  | none => cases dropped
  | some document => exact (Bool.and_eq_true _ _).mpr ⟨readable, drops_cutoff_mono h dropped⟩

/-- Two sweeps in either order leave the rows that the later of them leaves alone, and remove as
many as that.
-/
theorem sweep_sweep {archive : Archive S} (h : archive.HasAllTables) {view : Cluster.View}
    {registration : Cluster.Registration} (elected : view.isElected registration = true)
    (ttlDays : Nat) {now later : Instant} (ordered : now.millis ≤ later.millis)
    : let early := archive.sweep view registration ttlDays now
      let late := archive.sweep view registration ttlDays later
      let lateAfterEarly := early.archive.sweep view registration ttlDays later
      let earlyAfterLate := late.archive.sweep view registration ttlDays now
      (∀ table, lateAfterEarly.archive.rows table = late.archive.rows table)
        ∧ early.report.deleted + lateAfterEarly.report.deleted = late.report.deleted
        ∧ (∀ table, earlyAfterLate.archive.rows table = late.archive.rows table)
        ∧ earlyAfterLate.report.deleted = 0 := by
  intro early late lateAfterEarly earlyAfterLate
  have hEarly := h.sweep view registration ttlDays now
  have hLate := h.sweep view registration ttlDays later
  have earlyCount : early.report.deleted + early.archive.rowCount = _ :=
    count_sweep h elected ttlDays now
  have lateCount : late.report.deleted + late.archive.rowCount = _ :=
    count_sweep h elected ttlDays later
  have count : lateAfterEarly.report.deleted + lateAfterEarly.archive.rowCount
      = early.archive.rowCount :=
    count_sweep hEarly elected ttlDays later
  have count' : earlyAfterLate.report.deleted + earlyAfterLate.archive.rowCount
      = late.archive.rowCount :=
    count_sweep hLate elected ttlDays now
  -- Neither sweep changes what can be read, so both lose what they lose at first.
  have losesEarly : early.archive.loses = archive.loses := by
    funext table cut row
    exact congrArg (· && _) (isReadable_sweep h elected ttlDays now table)
  have losesLate : late.archive.loses = archive.loses := by
    funext table cut row
    exact congrArg (· && _) (isReadable_sweep h elected ttlDays later table)
  have forward (table : String)
      : lateAfterEarly.archive.rows table = late.archive.rows table := by
    rw [rows_sweep hEarly elected, rows_sweep h elected, rows_sweep h elected, losesEarly]
    refine KeyMap.filter_filter_of_imp fun id row kept => ?_
    cases lost : archive.loses table (cutoff now ttlDays) row with
    | false => rfl
    | true => simp [loses_cutoff_mono ordered lost] at kept
  have backward (table : String)
      : earlyAfterLate.archive.rows table = late.archive.rows table := by
    rw [rows_sweep hLate elected, losesLate]
    refine KeyMap.filter_eq_self fun id row bound => ?_
    rw [rows_sweep h elected, KeyMap.get?_filter, Option.filter_eq_some_iff] at bound
    cases lost : archive.loses table (cutoff now ttlDays) row with
    | false => rfl
    | true => simp [loses_cutoff_mono ordered lost] at bound
  have sameCount (first second : Archive S) (same : ∀ table, first.rows table = second.rows table)
      : first.rowCount = second.rowCount := by
    simp only [rowCount, same]
  have total := sameCount _ _ forward
  have total' := sameCount _ _ backward
  refine ⟨forward, ?_, backward, ?_⟩
  · omega
  · omega

end

/-- A sweep by the elected instance removes the rows of bucketed tables whose windows have ended by
the first midnight to keep, and keeps rows with later windows and rows without a window. So it does
in every table all of whose rows can be read, as all rows in memory can; another table keeps its
rows and fails, unless there are no windows to remove. A sweep reports how many rows went; sweeping
again removes nothing more, and sweeps at several instants come to one at the latest of them.
-/
theorem sweep_removes_ended_windows {archive : Archive Backend} (h : archive.HasAllTables)
    {view : Cluster.View} {registration : Cluster.Registration}
    (elected : view.isElected registration = true) (ttlDays : Nat) (now : Instant)
    : let swept := archive.sweep view registration ttlDays now
      (∀ kind descriptor, (kind, descriptor) ∈ allTables → ∀ id row,
        archive.row? descriptor.table id = .ok (some row) →
        (∀ granularity label start,
          descriptor.retention = some ⟨"time_bucket", granularity⟩ →
          bucket? row "time_bucket" = some label →
          granularity.windowStart? label = some start → 0 ≤ start.millis →
          archive.IsReadable descriptor.table →
          swept.archive.row? descriptor.table id
            = .ok (if start.millis + granularity.windowLength start ≤ cutoff now ttlDays
                then none else some row))
        ∧ (descriptor.retention = none ∨ bucket? row "time_bucket" = none →
          swept.archive.row? descriptor.table id = .ok (some row)))
      ∧ (∀ table, ¬archive.IsReadable table →
        ∀ id, swept.archive.row? table id = archive.row? table id)
      ∧ (∀ kind descriptor, (kind, descriptor) ∈ allTables →
        (descriptor.table ∈ swept.report.failedTables
          ↔ ¬archive.IsReadable descriptor.table ∧ ∃ retention first last,
            descriptor.retention = some retention
            ∧ retention.granularity.resolveRange? 0 (cutoff now ttlDays - 1)
              = some (first, last)))
      ∧ (HasPlainForm.kind archive.store = .memory → ∀ table, archive.IsReadable table)
      ∧ (∀ table id, archive.row? table id = .ok none →
          swept.archive.row? table id = .ok none)
      ∧ swept.report.deleted + swept.archive.rowCount = archive.rowCount
      ∧ (swept.archive.sweep view registration ttlDays now).report.deleted = 0
      ∧ ∀ later, now.millis ≤ later.millis →
          let late := archive.sweep view registration ttlDays later
          let lateAfterSwept := swept.archive.sweep view registration ttlDays later
          let sweptAfterLate := late.archive.sweep view registration ttlDays now
          (∀ table id, lateAfterSwept.archive.row? table id = late.archive.row? table id)
          ∧ swept.report.deleted + lateAfterSwept.report.deleted = late.report.deleted
          ∧ (∀ table id, sweptAfterLate.archive.row? table id = late.archive.row? table id)
          ∧ sweptAfterLate.report.deleted = 0 := by
  intro swept
  refine ⟨?_,
    fun table unreadable => row?_sweep_of_unreadable h elected ttlDays now unreadable,
    fun kind descriptor member => mem_failedTables_sweep h elected ttlDays now member,
    fun inMemory table => isReadable_of_memory inMemory table,
    fun table id absent => row?_sweep_of_absent h elected ttlDays now absent,
    count_sweep h elected ttlDays now,
    (sweep_sweep h elected ttlDays (Int.le_refl now.millis)).2.2.2, ?_⟩
  · intro kind descriptor member id row stored
    constructor
    · intro granularity label start retention bucket named since1970 readable
      have ended := drops_iff_ended retention (horizon now ttlDays) bucket named since1970
      have own : archive.loses descriptor.table (cutoff now ttlDays) (some row)
          = descriptor.drops 0 (cutoff now ttlDays - 1) row := by
        rw [loses, isReadable_iff.mp readable, Bool.true_and, Option.any_some,
          drops_eq_of_mem member]
      by_cases past : start.millis + granularity.windowLength start ≤ cutoff now ttlDays
      · rw [if_pos past]
        exact row?_sweep_of_lost h elected ttlDays now stored (own.trans (ended.mpr past))
      · rw [if_neg past]
        have spared := own.trans (Bool.eq_false_iff.mpr fun gone => past (ended.mp gone))
        exact row?_sweep_of_spared h elected ttlDays now stored spared
    · intro unbounded
      refine row?_sweep_of_spared h elected ttlDays now stored ?_
      rw [loses, Option.any_some, drops_eq_of_mem member,
        drops_eq_false_of_no_bucket member unbounded, Bool.and_false]
  · intro later ordered late lateAfterSwept sweptAfterLate
    obtain ⟨forward, sum, backward, none⟩ := sweep_sweep h elected ttlDays ordered
    refine ⟨fun table id => ?_, sum, fun table id => ?_, none⟩
    · rw [row?_eq, row?_eq, forward]
    · rw [row?_eq, row?_eq, backward]

theorem sweep_removes_ended_windows_after_leap_day
    : let row (bucket : Int) : Document := (∅ : Document).insert "time_bucket" (.int bucket)
      let deep : Value := Nat.repeat (fun inner => .list [inner]) 127 (.int 0)
      let tables : List (String × KeyMap Document) := [
        ("month_cpu_metric", .ofList [("a", row 202402)]),
        ("day_cpu_metric", .ofList [("a", row 20240301)]),
        ("hour_cpu_metric", .ofList [("a", row 2024022911),
          ("b", (∅ : Document).insert "attributes" deep)])]
      let store := Backend.database ⟨{}, .ofList tables⟩
      let keeper : Cluster.Registration := ⟨"storage", "keeper", "keeper-1", 0⟩
      let noon : Instant := ⟨1709294400000, by decide⟩
      let swept := (onStore store .lenient).sweep ⟨"storage", [keeper]⟩ keeper 1 noon
      swept.archive.row? "month_cpu_metric" "a" = .ok none
        ∧ swept.archive.row? "day_cpu_metric" "a" = .ok (some (row 20240301))
        ∧ swept.archive.row? "hour_cpu_metric" "a" = .ok (some (row 2024022911))
        ∧ "hour_cpu_metric" ∈ swept.report.failedTables := by
  intro row deep tables store keeper noon swept
  have nested : deep.nesting = 127 := Value.nesting_repeat_list 127 (.int 0)
  clear_value deep
  have looked (table id : String)
      : TableStore.row? store table id
        = ((tables.lookup table).bind (·.get? id)).mapM Database.read :=
    congrArg (fun rows : Option (KeyMap Document) => (rows.bind (·.get? id)).mapM Database.read)
      (KeyMap.get?_ofList (by simp [tables]) table)
  have month : TableStore.row? store "month_cpu_metric" "a" = .ok (some (row 202402)) := by
    rw [looked]
    rfl
  have day : TableStore.row? store "day_cpu_metric" "a" = .ok (some (row 20240301)) := by
    rw [looked]
    rfl
  have hours (id : String)
      : TableStore.row? store "hour_cpu_metric" id
        = (List.lookup id [("a", row 2024022911),
            ("b", (∅ : Document).insert "attributes" deep)]).mapM Database.read := by
    rw [looked]
    exact congrArg (Option.mapM Database.read) (KeyMap.get?_ofList (by simp) id)
  have hour : TableStore.row? store "hour_cpu_metric" "a" = .ok (some (row 2024022911)) := by
    rw [hours]
    rfl
  have stuck : TableStore.row? store "hour_cpu_metric" "b" = .error .undecodable := by
    have held : ((∅ : Document).insert "attributes" deep).get? "attributes" = some deep := rfl
    have tooDeep : Document.reread? ((∅ : Document).insert "attributes" deep) = none :=
      Document.reread?_eq_none held nested.ge
    rw [hours]
    change (Database.read ((∅ : Document).insert "attributes" deep)).map some = _
    rw [Database.read, tooDeep]
    rfl
  have single (bucket : Int) (id : String) (error : Error)
      : ((KeyMap.ofList [("a", row bucket)]).get? id).mapM Database.read ≠ .error error := by
    rw [KeyMap.get?_ofList (by simp), List.lookup]
    cases id == "a" <;> exact (nomatch ·)
  obtain ⟨rows, unread, failed, _⟩ := sweep_removes_ended_windows
    (hasAllTables_onStore store .lenient)
    (rfl : (Cluster.View.mk "storage" [keeper]).isElected keeper = true) 1 noon
  let february : Instant := ⟨1706745600000, by decide⟩
  let firstOfMarch : Instant := ⟨1709251200000, by decide⟩
  have unreadable : ¬(onStore store .lenient).IsReadable "hour_cpu_metric" :=
    fun readable => readable "b" .undecodable stuck
  have readableMonths : (onStore store .lenient).IsReadable "month_cpu_metric" :=
    fun id error same => single 202402 id error ((looked _ _).symm.trans same)
  have readableDays : (onStore store .lenient).IsReadable "day_cpu_metric" :=
    fun id error same => single 20240301 id error ((looked _ _).symm.trans same)
  refine ⟨?_, ?_, (unread _ unreadable "a").trans hour, ?_⟩
  · have gone := (rows .cpuMetric (.bucketed "month_cpu_metric" .month) (by decide) "a"
      (row 202402) month).1 .month 202402 february rfl rfl (by decide) (by decide)
      readableMonths
    exact gone.trans (congrArg Except.ok (if_pos (by decide)))
  · have kept := (rows .cpuMetric (.bucketed "day_cpu_metric" .day) (by decide) "a"
      (row 20240301) day).1 .day 20240301 firstOfMarch rfl rfl (by decide) (by decide)
      readableDays
    exact kept.trans (congrArg Except.ok (if_neg (by decide)))
  · exact (failed .cpuMetric (.bucketed "hour_cpu_metric" .hour) (by decide)).mpr
      ⟨unreadable, ⟨"time_bucket", .hour⟩, 1970010100, 2024022923, rfl, by decide⟩

end Archive

end Telemetry.Collector
