import Telemetry.Proofs.Records.DivergingRecords
import Telemetry.Proofs.Storage.WrittenRecords

/-! Rows under strict merging. A row is the fold of some of the records that were ingested under its
id, which agree in all unmerged columns; what diverges from them is left out, either when it is
ingested or when it is to be delivered.
-/

namespace Telemetry

open Storage HasPlainForm

-----------------------------------------------------------------------------------------
-- What is gathered
-----------------------------------------------------------------------------------------

namespace MergeMode

variable {R : Type} [StreamData R]

theorem eq_nil_of_fold {mode : MergeMode} {records : List R} (h : mode.fold records = .ok none)
    : records = [] := by
  cases records with
  | nil => rfl
  | cons first rest =>
      obtain ⟨_, _, made⟩ := map_eq_ok.mp h
      cases made

/-- What is gathered is the fold of some of the records, the first one among them, by induction from
the last record.
-/
theorem exists_sublist_gather (mode : MergeMode) (records : List R)
    : ∃ used : List R, used.Sublist records ∧ used.head? = records.head?
      ∧ mode.fold used = .ok (mode.gather records) := by
  induction records using List.reverseRecOn with
  | nil => exact ⟨[], .slnil, rfl, rfl⟩
  | append_singleton earlier record ih =>
      obtain ⟨used, among, first, folds⟩ := ih
      rw [gather_concat]
      cases held : mode.gather earlier with
      | none =>
          rw [held] at folds
          refine ⟨used ++ [record], among.append (.refl _), ?_, fold_concat_of_none folds record⟩
          rw [List.head?_append, List.head?_append, first]
      | some total =>
          rw [held] at folds
          cases merges : mode.merge total record with
          | ok merged =>
              refine ⟨used ++ [record], among.append (.refl _), ?_, ?_⟩
              · rw [List.head?_append, List.head?_append, first]
              · rw [fold_concat_of_some folds, merges]
                simp only [absorb, merges]
                rfl
          | error error =>
              refine ⟨used, among.trans (List.sublist_append_left _ _), ?_, ?_⟩
              · obtain ⟨head, rest, rfl⟩ := List.exists_cons_of_ne_nil (ne_nil_of_fold folds)
                rw [List.head?_append, ← first]
                rfl
              · rw [folds]
                simp only [absorb, merges]
                rfl

end MergeMode

namespace Record

variable {entity : Entity} {mode : MergeMode}

/-- A merge takes its doubles from the later record. -/
theorem IsFinite.merge (whole : entity.IsWhole) {first second merged : Record entity}
    (merges : mode.merge first second = .ok merged) (finite : second.IsFinite)
    : merged.IsFinite := by
  intro column member
  by_cases double : column.type = .double
  · have values := (merge_eq_ok_iff.mp merges).2 column member
    simp only [MergeMode.mergeValue, (whole column member).2 double] at values
    rw [← Except.ok.inj values]
    exact finite column member
  · have typed := merged.type_value member
    cases value : merged.value column with
    | double number => rw [value] at typed; exact absurd typed.symm double
    | string _ | long _ | integer _ | byte _ => trivial

/-- What is gathered of finite records is finite. -/
theorem IsFinite.gather (whole : entity.IsWhole) {records : List (Record entity)}
    (finite : ∀ record ∈ records, record.IsFinite) {total : Record entity}
    (gathers : mode.gather records = some total)
    : total.IsFinite :=
  MergeMode.of_gather finite (fun _ _ _ _ later merges => later.merge whole merges) gathers

/-- Whether a store gives the doubles of a record back as they were makes no difference to what is
merged with it.
-/
theorem merge_keptRecord (whole : entity.IsWhole) (kind : BackendKind)
    (first second : Record entity) {merged : Record entity}
    : mode.merge (kind.keptRecord first) second = .ok merged
      ↔ mode.merge first second = .ok merged := by
  rw [merge_eq_ok_iff, merge_eq_ok_iff, kind.id_keptRecord]
  refine and_congr_right fun _ => forall_congr' fun column => forall_congr' fun member => ?_
  rw [kind.value_keptRecord first member]
  by_cases double : column.type = .double
  · simp only [MergeMode.mergeValue, (whole column member).2 double]
  · rw [kind.keptValue_of_ne_double (by rw [first.type_value member]; exact double)]

end Record

-----------------------------------------------------------------------------------------
-- What is written
-----------------------------------------------------------------------------------------

namespace Storage

namespace BackendKind

variable {entity : Entity} {mode : MergeMode}

/-- Unmerged values pass through every store as they are. -/
theorem value_keptRecord_of_nonMerge (whole : entity.IsWhole) (kind : BackendKind)
    (record : Record entity) {column : Column} (member : column ∈ entity.columns)
    (rule : column.rule = .nonMerge)
    : (kind.keptRecord record).value column = record.value column := by
  rw [kind.value_keptRecord record member]
  refine kind.keptValue_of_ne_double fun double => ?_
  have cover := (whole column member).2 ((record.type_value member).symm.trans double)
  rw [rule] at cover
  cases cover

/-- Rewriting a fold with a fold goes on with the first one, or takes in all records of both. -/
theorem exists_fold_rewrite (whole : entity.IsWhole) (kind : BackendKind) {id : String}
    {used delivered : List (Record entity)} (all : ∀ record ∈ used ++ delivered, record.id = id)
    {written? delivered? : Option (Record entity)} (folds : mode.fold used = .ok written?)
    (foldsNow : mode.fold delivered = .ok delivered?)
    (finite : ∀ written, written? = some written → written.IsFinite)
    (finiteNow : ∀ delivered, delivered? = some delivered → delivered.IsFinite)
    : ∃ total, (total = used ∨ total = used ++ delivered)
      ∧ total.head? = used.head?.or delivered.head?
      ∧ mode.fold total = .ok (kind.rewrite mode written? delivered?)
      ∧ ∀ written, kind.rewrite mode written? delivered? = some written → written.IsFinite := by
  cases written? with
  | none =>
      cases MergeMode.eq_nil_of_fold folds
      exact ⟨delivered, .inr rfl, rfl, foldsNow, finiteNow⟩
  | some written =>
      cases delivered? with
      | none =>
          cases MergeMode.eq_nil_of_fold foldsNow
          exact ⟨used, .inl rfl, Option.or_none.symm, folds, finite⟩
      | some now =>
          have some := MergeMode.ne_nil_of_fold folds
          have someNow := MergeMode.ne_nil_of_fold foldsNow
          simp only [rewrite, if_pos (finite written rfl)]
          cases merges : mode.merge (kind.keptRecord written) now with
          | ok merged =>
              have together := (Record.fold_append_eq_ok_iff whole mode some someNow all).mpr
                ⟨written, now, merged, folds, foldsNow,
                  (Record.merge_keptRecord whole kind written now).mp merges, rfl⟩
              refine ⟨used ++ delivered, .inr rfl, List.head?_append, together, ?_⟩
              rintro _ ⟨⟩
              exact (finiteNow now rfl).merge whole merges
          | error error =>
              obtain ⟨head, rest, rfl⟩ := List.exists_cons_of_ne_nil some
              exact ⟨head :: rest, .inl rfl, rfl, folds, finite⟩

/-- The record behind a row is the fold of some of the records that were delivered, the first one
among them, by induction from the last delivery.
-/
theorem exists_sublist_lastWritten (whole : entity.IsWhole) (kind : BackendKind) {id : String}
    {deliveries : List (List (Record entity))}
    (all : ∀ record ∈ deliveries.flatten, record.id = id)
    (finite : ∀ record ∈ deliveries.flatten, record.IsFinite)
    : ∃ used : List (Record entity), used.Sublist deliveries.flatten
      ∧ used.head? = deliveries.flatten.head?
      ∧ mode.fold used = .ok (kind.lastWritten mode deliveries)
      ∧ ∀ written, kind.lastWritten mode deliveries = some written → written.IsFinite := by
  induction deliveries using List.reverseRecOn with
  | nil => exact ⟨[], .slnil, rfl, rfl, fun _ none => nomatch none⟩
  | append_singleton earlier records ih =>
      have flat : (earlier ++ [records]).flatten = earlier.flatten ++ records := by simp
      rw [flat] at all finite ⊢
      obtain ⟨used, among, first, folds, finiteBefore⟩ := ih
        (fun record member => all record (List.mem_append_left _ member))
        (fun record member => finite record (List.mem_append_left _ member))
      obtain ⟨usedNow, amongNow, firstNow, foldsNow⟩ := mode.exists_sublist_gather records
      obtain ⟨total, taken, head, foldsAll, finiteAll⟩ := exists_fold_rewrite whole kind
        (fun record member => all record ((among.append amongNow).subset member)) folds foldsNow
        finiteBefore fun delivered gathers => .gather whole
          (fun record member => finite record (List.mem_append_right _ member)) gathers
      rw [lastWritten_concat]
      refine ⟨total, ?_, ?_, foldsAll, finiteAll⟩
      · rcases taken with rfl | rfl
        · exact among.trans (List.sublist_append_left _ _)
        · exact among.append amongNow
      · rw [head, first, firstNow, List.head?_append]

/-- The unmerged values behind a row stay, by induction from the last delivery. -/
theorem exists_lastWritten_append (whole : entity.IsWhole) {kind : BackendKind}
    {deliveries : List (List (Record entity))} {written : Record entity}
    (last : kind.lastWritten mode deliveries = some written)
    (later : List (List (Record entity)))
    : ∃ now, kind.lastWritten mode (deliveries ++ later) = some now
      ∧ ∀ column ∈ entity.columns, column.rule = .nonMerge →
        now.value column = written.value column := by
  induction later using List.reverseRecOn with
  | nil => exact ⟨written, by rw [List.append_nil, last], fun _ _ _ => rfl⟩
  | append_singleton earlier records ih =>
      obtain ⟨now, lastNow, same⟩ := ih
      rw [← List.append_assoc, lastWritten_concat, lastNow]
      cases mode.gather records with
      | none => exact ⟨now, rfl, same⟩
      | some delivered =>
          by_cases finite : now.IsFinite
          · simp only [rewrite, if_pos finite]
            cases merges : mode.merge (kind.keptRecord now) delivered with
            | error error => exact ⟨now, rfl, same⟩
            | ok merged =>
                refine ⟨merged, rfl, fun column member rule => ?_⟩
                rw [Record.value_of_nonMerge merges member rule,
                  kind.value_keptRecord_of_nonMerge whole now member rule]
                exact same column member rule
          · exact ⟨now, if_neg finite, same⟩

/-- Records with the same value in a column keep the same plain value of it. -/
theorem get?_kept_document_congr (kind : BackendKind) {first second : Record entity}
    {column : Column} (member : column ∈ entity.columns)
    (same : first.value column = second.value column)
    : (kind.kept first.document).get? column.name
      = (kind.kept second.document).get? column.name := by
  rw [get?_kept, get?_kept, first.get?_document member, second.get?_document member, same]

end BackendKind

/-- A strict worker refuses the records that diverge from what is staged, and names a column. -/
theorem Worker.Gathers.ingest_strict {entity : Entity} (whole : entity.IsWhole)
    {worker : Worker (Record entity)} {descriptor : Descriptor} {records : List (Record entity)}
    (h : worker.Gathers descriptor .strict records) {record earlier : Record entity}
    (staged : worker.staged.get? record.id = some earlier)
    : ((∃ column ∈ entity.columns, column.rule = .nonMerge
          ∧ earlier.value column ≠ record.value column)
        ↔ ∃ error, worker.ingest record = .error error)
      ∧ ∀ error, worker.ingest record = .error error →
        ∃ column ∈ entity.columns, column.rule = .nonMerge
          ∧ earlier.value column ≠ record.value column
          ∧ error = .invariantViolation (.diverged entity.entity column.name record.id
              (earlier.value column) (record.value column)) := by
  have same : earlier.id = record.id := h.keyed _ _ staged
  have merges : worker.ingest record = (MergeMode.strict.merge earlier record).map
      fun merged => (.merged, worker.hold record.id merged) :=
    h.ofMode ▸ ingest_of_staged staged
  have names (error : Error) (fails : worker.ingest record = .error error)
      : ∃ column ∈ entity.columns, column.rule = .nonMerge
        ∧ earlier.value column ≠ record.value column
        ∧ error = .invariantViolation (.diverged entity.entity column.name record.id
            (earlier.value column) (record.value column)) := by
    rw [merges] at fails
    cases outcome : MergeMode.strict.merge earlier record with
    | ok merged => rw [outcome] at fails; cases fails
    | error error =>
        rw [outcome] at fails
        cases fails
        rw [← same]
        exact (Record.merge_eq_error whole same outcome).2
  refine ⟨⟨?_, ?_⟩, names⟩
  · rintro ⟨column, member, rule, differ⟩
    obtain ⟨_, _, _, _, fails⟩ := Record.merge_strict_of_differ whole same member rule differ
    exact ⟨_, by rw [merges, fails]; rfl⟩
  · rintro ⟨error, fails⟩
    obtain ⟨column, member, rule, differ, _⟩ := names error fails
    exact ⟨column, member, rule, differ⟩

-----------------------------------------------------------------------------------------
-- Runs without a dropped batch
-----------------------------------------------------------------------------------------

namespace Persistence

variable {entity : Entity} {S : Type}

def ingested (steps : List (PersistenceStep entity)) : List (Record entity) :=
  steps.filterMap fun
    | .ingest record => some record
    | .drain | .flush _ _ => none

/-- Whether no flush among some steps is dropped by a store of a kind. -/
def InTime (kind : BackendKind) (steps : List (PersistenceStep entity)) : Prop :=
  ∀ timeout deadline, .flush timeout deadline ∈ steps → kind.drops deadline = false

/-- Whether all records that were handed over are delivered or still on their way. -/
structure Accounts (state : Persistence entity S) (records : List (Record entity)) : Prop where
  all : state.delivered.flatten ++ (state.drained ++ state.waiting) = records
  landed : state.inFlight = none → state.drained = []

/-- A row holds the fold of some of the records ingested under its id, the first one among them, if
no batch was dropped.
-/
theorem Accounts.exists_fold {state : Persistence entity S} {mode : MergeMode} {kind : BackendKind}
    (whole : entity.IsWhole) {records : List (Record entity)}
    (accounts : state.Accounts records) (finite : ∀ record ∈ records, record.IsFinite)
    {id : String} {total : Record entity}
    (last : kind.lastWritten mode (state.delivered.map (ofId id)) = some total)
    : ∃ used : List (Record entity), used.Sublist (ofId id records)
      ∧ used.head? = (ofId id records).head?
      ∧ mode.fold used = .ok (some total) ∧ total.IsFinite := by
  have flat := flatten_map_ofId id state.delivered
  have split : ofId id records
      = ofId id state.delivered.flatten ++ ofId id (state.drained ++ state.waiting) := by
    rw [← accounts.all]
    exact List.filter_append _ _
  have delivered : ∀ record ∈ ofId id state.delivered.flatten, record ∈ records := by
    intro record member
    rw [← accounts.all]
    exact List.mem_append_left _ (List.mem_of_mem_filter member)
  obtain ⟨used, among, first, folds, finiteLast⟩ := kind.exists_sublist_lastWritten whole
    (flat ▸ id_of_mem_ofId) fun record member => finite record (delivered record (flat ▸ member))
  rw [flat] at among first
  rw [last] at folds
  refine ⟨used, ?_, ?_, folds, finiteLast total last⟩
  · rw [split]
    exact among.trans (List.sublist_append_left _ _)
  · obtain ⟨head, rest, rfl⟩ := List.exists_cons_of_ne_nil (MergeMode.ne_nil_of_fold folds)
    rw [split, List.head?_append, ← first]
    rfl

variable [TableStore S] [HasPlainForm S] {state : Persistence entity S}

/-- A step without a dropped batch loses no record. -/
theorem Accounts.step {descriptor : Descriptor} {mode : MergeMode} {kind : BackendKind}
    (tracks : state.Tracks descriptor mode kind) {records : List (Record entity)}
    (h : state.Accounts records) {step : PersistenceStep entity} (inTime : InTime kind [step])
    : (state.step step).Accounts (records ++ ingested [step]) := by
  obtain ⟨all, landed⟩ := h
  subst all
  cases step with
  | ingest record => exact ⟨by simp [Persistence.step, ingested], landed⟩
  | drain =>
      cases flight : state.inFlight with
      | some operations =>
          simp only [Persistence.step, flight]
          exact ⟨by simp [ingested], fun none =>
            absurd (flight.symm.trans none) (Option.some_ne_none _)⟩
      | none =>
          have nothing := landed flight
          simp only [Persistence.step, flight]
          exact ⟨by simp [ingested, nothing], fun none => absurd none (Option.some_ne_none _)⟩
  | flush timeout deadline =>
      cases flight : state.inFlight with
      | none =>
          simp only [Persistence.step, flight]
          exact ⟨by simp [ingested], landed⟩
      | some operations =>
          obtain ⟨worker, gathers, rfl⟩ := tracks.inFlight operations flight
          have timely := inTime timeout deadline List.mem_cons_self
          obtain ⟨committed, _⟩ :=
            worker.flush_operations gathers.keyed timeout deadline state.store
          rw [tracks.ofKind, timely, Bool.not_false, Bool.or_true] at committed
          simp only [Persistence.step, flight, committed]
          exact ⟨by simp [ingested], fun _ => rfl⟩

/-- Steps without a dropped batch lose no record, by induction over the steps. -/
theorem Accounts.run {descriptor : Descriptor} {mode : MergeMode} {kind : BackendKind}
    (tracks : state.Tracks descriptor mode kind) {records : List (Record entity)}
    (h : state.Accounts records) {steps : List (PersistenceStep entity)}
    (inTime : InTime kind steps)
    : (state.run steps).Accounts (records ++ ingested steps) := by
  induction steps generalizing state records with
  | nil => exact (List.append_nil records).symm ▸ h
  | cons step rest ih =>
      have first := h.step tracks fun timeout deadline member =>
        inTime timeout deadline (List.mem_cons.mpr (.inl (List.mem_singleton.mp member)))
      have later : InTime kind rest := fun timeout deadline member =>
        inTime timeout deadline (List.mem_cons_of_mem _ member)
      have split : ingested ([step] ++ rest) = ingested [step] ++ ingested rest :=
        List.filterMap_append
      rw [← List.singleton_append, split, ← List.append_assoc]
      exact ih (tracks.step step) first later

-----------------------------------------------------------------------------------------
-- Rows of strict runs
-----------------------------------------------------------------------------------------

/-- A row is written from the record behind it. -/
theorem Traced.exists_written {descriptor : Descriptor} {mode : MergeMode} {kind : BackendKind}
    (h : state.Traced descriptor mode kind) {id : String} {row : Document}
    (present : TableStore.row? state.store descriptor.table id = .ok (some row))
    : ∃ written, kind.lastWritten mode (state.delivered.map (ofId id)) = some written
      ∧ row = kind.kept written.document := by
  have present := row?_eq_ok_some_iff.mp present
  rw [h.written id] at present
  obtain ⟨written, last, made⟩ := Option.map_eq_some_iff.mp present
  exact ⟨written, last, (Option.some.inj made).symm⟩

/-- Under strict merging an ingest fails exactly if it diverges from what is staged, and changes
nothing then. A row is there exactly if a record of its id was delivered; it is the fold of some of
the records ingested under its id, the first one among them, which have the unmerged values of the
row, and these values never change. A store gives the fold back but for doubles that do not survive
in it.
-/
theorem strict_rows_fold_agreeing_records {entity : Entity} (whole : entity.IsWhole)
    {descriptor : Descriptor} (takes : descriptor.TakesRecords) {store : Backend}
    (empty : ∀ id, TableStore.row? store descriptor.table id = .ok none)
    {steps : List (PersistenceStep entity)} (inTime : InTime (kind store) steps)
    (finite : ∀ record ∈ ingested steps, record.IsFinite)
    : let done := (start entity .strict descriptor store).run steps
      (∀ record earlier : Record entity, done.worker.staged.get? record.id = some earlier →
        ((∃ column ∈ entity.columns, column.rule = .nonMerge
            ∧ earlier.value column ≠ record.value column)
          ↔ ∃ error, done.worker.ingest record = .error error)
        ∧ ∀ error, done.worker.ingest record = .error error →
          (∃ column ∈ entity.columns, column.rule = .nonMerge
            ∧ earlier.value column ≠ record.value column
            ∧ error = .invariantViolation (.diverged entity.entity column.name record.id
                (earlier.value column) (record.value column)))
          ∧ (done.step (.ingest record)).worker = done.worker)
      ∧ (∀ id, (∃ row, TableStore.row? done.store descriptor.table id = .ok (some row))
          ↔ ∃ record ∈ done.delivered.flatten, record.id = id)
      ∧ (∀ id row, TableStore.row? done.store descriptor.table id = .ok (some row) →
        ∃ used total stored, used.Sublist (ofId id (ingested steps))
          ∧ used.head? = (ofId id (ingested steps)).head?
          ∧ MergeMode.strict.fold used = .ok (some total)
          ∧ row = (kind store).kept total.document
          ∧ descriptor.fetch (Record entity) done.store id = .ok (some stored)
          ∧ ∀ column ∈ entity.columns,
            stored.value column = (kind store).keptValue (total.value column)
              ∧ (column.type ≠ .double → stored.value column = total.value column)
              ∧ (column.rule = .nonMerge →
                ∀ record ∈ used, record.value column = stored.value column))
      ∧ ∀ id row more, TableStore.row? done.store descriptor.table id = .ok (some row) →
        ∃ later, TableStore.row? (done.run more).store descriptor.table id = .ok (some later)
          ∧ ∀ column ∈ entity.columns, column.rule = .nonMerge →
            later.get? column.name = row.get? column.name := by
  intro done
  have traced : done.Traced descriptor .strict (kind store) :=
    (traced_start .strict empty).run takes steps
  have accounts : done.Accounts ([] ++ ingested steps) :=
    Accounts.run (tracks_start entity .strict descriptor store) ⟨rfl, fun _ => rfl⟩ inTime
  refine ⟨fun record earlier staged => ?_, traced.exists_row_iff, fun id row present => ?_,
    fun id row more present => ?_⟩
  · obtain ⟨refuses, names⟩ := traced.gathers.ingest_strict whole staged
    refine ⟨refuses, fun error fails => ⟨names error fails, ?_⟩⟩
    simp only [step, fails]
    rfl
  · obtain ⟨total, last, rfl⟩ := traced.exists_written present
    obtain ⟨used, among, first, folds, finiteTotal⟩ :=
      accounts.exists_fold whole finite last
    have fetched := Descriptor.fetch_present (row?_eq_ok_some_iff.mp present)
      ((kind store).decode?_kept finiteTotal)
    refine ⟨used, total, _, among, first, folds, rfl, fetched, fun column member => ?_⟩
    have kept := (kind store).value_keptRecord total member
    refine ⟨kept, fun whole => kept.trans ?_, fun rule record taken => ?_⟩
    · exact (kind store).keptValue_of_ne_double ((total.type_value member).symm ▸ whole)
    · rw [(kind store).value_keptRecord_of_nonMerge whole total member rule]
      exact Record.value_of_fold_strict whole folds member rule record taken
  · obtain ⟨total, last, rfl⟩ := traced.exists_written present
    obtain ⟨later, delivered⟩ := done.exists_delivered_run more
    obtain ⟨now, lastNow, same⟩ :=
      BackendKind.exists_lastWritten_append whole last (later.map (ofId id))
    refine ⟨(kind store).kept now.document, ?_, fun column member rule =>
      (kind store).get?_kept_document_congr member (same column member rule)⟩
    rw [row?_eq_stored?, (traced.run takes more).written id, delivered, List.map_append, lastNow]
    rfl

/-- A database gives the load of a single record back as its neighbour, and all else as it was. -/
theorem strict_rows_fold_agreeing_records_rounded_load
    : let probe : Entity := {
        entity := "probe"
        timeBucket := "time_bucket"
        columns := [⟨"id", .string, .nonMerge⟩, ⟨"time_bucket", .long, .nonMerge⟩,
          ⟨"host", .string, .nonMerge⟩, ⟨"load", .double, .coverMerge⟩] }
      let seen : Record probe := ⟨[.string "a", .long 20240106, .string "h",
        .double ⟨0x40473b9bdc011f80⟩], rfl⟩
      let daily : Descriptor := .bucketed "day_probe" .day
      let done := (start probe .strict daily (Backend.ofKind .database)).run
        [.ingest seen, .drain, .flush 20000 .ahead]
      ∃ stored : Record probe, daily.fetch (Record probe) done.store "a" = .ok (some stored)
        ∧ stored.value ⟨"host", .string, .nonMerge⟩ = .string "h"
        ∧ stored.value ⟨"load", .double, .coverMerge⟩ = .double ⟨0x40473b9bdc011f7f⟩ := by
  intro probe seen daily done
  obtain ⟨_, _, folded, _⟩ := strict_rows_fold_agreeing_records (by decide : probe.IsWhole)
    (⟨rfl, rfl⟩ : daily.TakesRecords)
    (fun _ => rfl : ∀ id, TableStore.row? (Backend.ofKind .database) daily.table id = .ok none)
    (by simp [InTime, BackendKind.drops] :
      InTime .database [.ingest seen, .drain, .flush 20000 .ahead])
    (by simp [ingested]; decide)
  have there : (TableStore.row? done.store daily.table "a").toOption.join.isSome = true := by
    decide +kernel
  obtain ⟨row, present⟩ := Option.isSome_iff_exists.mp there
  obtain ⟨used, total, stored, among, first, folds, _, fetched, values⟩ :=
    folded "a" row (ok_of_toOption (Option.join_eq_some_iff.mp present))
  have ids : ofId "a" (ingested [.ingest seen, .drain, .flush 20000 .ahead]) = [seen] := by
    decide +kernel
  rw [ids] at among first
  -- The single record is all that can have been used.
  have used : used = [seen] := by
    cases used with
    | nil => cases first
    | cons head rest =>
        cases first
        have short := among.length_le
        cases rest with
        | nil => rfl
        | cons _ _ => simp at short
  subst used
  cases folds
  obtain ⟨_, host, _⟩ := values ⟨"host", .string, .nonMerge⟩ (by decide)
  obtain ⟨load, _⟩ := values ⟨"load", .double, .coverMerge⟩ (by decide)
  refine ⟨stored, fetched, (host (by decide)).trans rfl, load.trans ?_⟩
  decide +kernel

end Persistence

end Storage

end Telemetry
