import Telemetry.Collector.Deployment
import Telemetry.Proofs.Collector.UntouchedPlaces

/-! How long rows last that nothing is brought to any more. A row of a bucketed table goes with the
first elected sweep whose history covers its time bucket. Records are not checked for their time
buckets when they are accepted, so a bucket from before 1970, or with too few or too many digits
for its table, may be one that no sweep ever covers.
-/

namespace Telemetry

/-- The end of the calendar. -/
def Instant.last : Instant := ⟨8210266876799999, by decide⟩

theorem Instant.millis_le_last (instant : Instant) : instant.millis ≤ last.millis :=
  instant.onCalendar.2

namespace Collector

open Storage HasPlainForm

-----------------------------------------------------------------------------------------
-- Accepted records
-----------------------------------------------------------------------------------------

namespace Deployment

def archive? (deployment : Deployment) (name : String) : Option (Archive Backend) :=
  (deployment.collectors.get? name).bind fun collector => collector.storage.map (·.archive)

/-- A record is accepted if the services of the collector name a table for it, and is staged there.
-/
theorem accept_eq_ok {deployment next : Deployment} {name : String} {record : StreamRecord}
    {archive : Archive Backend} (tables : deployment.archive? name = some archive)
    (accepted : accept name record deployment = (.ok (), next))
    : ∃ collector table answer, deployment.collectors.get? name = some collector
        ∧ sinkTable collector.running.manager record.kind record.granularity = .ok table
        ∧ archive.ingest record.kind table record.record = .ok answer
        ∧ next.archive? name = some answer.2 := by
  obtain ⟨collector, found, more⟩ := Option.bind_eq_some_iff.mp tables
  obtain ⟨storage, kept, rfl⟩ := Option.map_eq_some_iff.mp more
  unfold accept at accepted
  simp only [found] at accepted
  cases dispatched : deployment.dispatch name collector record with
  | error error =>
      rw [dispatched] at accepted
      cases accepted
  | ok left =>
      rw [dispatched] at accepted
      cases accepted
      unfold dispatch at dispatched
      obtain ⟨table, routed, staged⟩ := bind_eq_ok.mp dispatched
      rw [kept] at staged
      obtain ⟨answer, ingested, made⟩ := bind_eq_ok.mp staged
      cases made
      refine ⟨collector, table, answer, found, routed, ingested, ?_⟩
      simp [archive?, withArchive, KeyMap.get?_insert, kept]

end Deployment

-----------------------------------------------------------------------------------------
-- Rows and sweeps
-----------------------------------------------------------------------------------------

/-- The step keeps rows for so many days if it is a sweep. -/
def ArchiveStep.KeepsDays (ttlDays : Nat) : ArchiveStep → Prop
  | .sweep _ _ days _ => days = ttlDays
  | _ => True

namespace Archive

variable {S : Type} [TableStore S] {archive : Archive S} {kind : RecordKind}
variable {descriptor : Descriptor} {retention : Retention} {id : String} {row : Document}
variable {bucket : Int}

/-- A sweep drops a row exactly if the history that it deletes covers the time bucket. -/
theorem drops_eq_covers (listed : (kind, descriptor) ∈ allTables)
    (read : bucket? row "time_bucket" = some bucket) (now : Instant) (ttlDays : Nat)
    : drops descriptor.table (cutoff now ttlDays) row
      = descriptor.covers 0 (retentionEnd now ttlDays) bucket := by
  have column : ∀ retention, descriptor.retention = some retention →
      retention.column = "time_bucket" :=
    fun _ kept => (bucketed_of_retention listed kept).1
  rw [drops_eq_of_mem listed, ← retentionEnd_eq, Bool.eq_iff_iff,
    Descriptor.drops_eq_true_iff column, read]
  simp

/-- From an instant on every elected sweep leaves a place without a row, as long as nothing is
brought there and the rows of the table can be read.
-/
def IsSweptFrom (archive : Archive S) (name id : String) (ttlDays : Nat) (start : Instant)
    : Prop :=
  ∀ now : Instant, start.millis ≤ now.millis →
    ∀ steps, (∀ step ∈ steps, ArchiveStep.Avoids (name, id) step) →
      ∀ view registration, Cluster.View.isElected view registration = true →
        (archive.run steps).IsReadable name →
        ((archive.run steps).sweep view registration ttlDays now).archive.row? name id = .ok none

/-- No sweep that keeps so many days ever takes the row of a place, as long as nothing is brought
there.
-/
def IsNeverSwept (archive : Archive S) (name id : String) (ttlDays : Nat) : Prop :=
  ∃ row, ∀ steps,
    (∀ step ∈ steps, ArchiveStep.Avoids (name, id) step ∧ step.KeepsDays ttlDays) →
      (archive.run steps).row? name id = .ok (some row)

variable [HasPlainForm S]

/-- A row whose time bucket is covered at some instant is swept from then on. -/
theorem IsSound.isSweptFrom (h : archive.IsSound) (complete : archive.HasAllTables)
    (listed : (kind, descriptor) ∈ allTables)
    (nothing : archive.staged? descriptor.table id = none)
    (current : stored? archive.store descriptor.table id = some (some row))
    (read : bucket? row "time_bucket" = some bucket) {ttlDays : Nat} {start : Instant}
    (covered : descriptor.covers 0 (retentionEnd start ttlDays) bucket = true)
    : archive.IsSweptFrom descriptor.table id ttlDays start := by
  intro now later steps avoid view registration elected readable
  have dropped : drops descriptor.table (cutoff now ttlDays) row = true :=
    drops_cutoff_mono later ((drops_eq_covers listed read start ttlDays).trans covered)
  have lost : (archive.run steps).loses descriptor.table (cutoff now ttlDays) (some row) = true :=
    (Bool.and_eq_true _ _).mpr ⟨isReadable_iff.mp readable, dropped⟩
  have swept := (complete.run steps).stored?_sweep view registration ttlDays now
    descriptor.table id
  refine row?_eq_ok_none_iff.mpr (swept.trans ?_)
  rcases h.stored?_run complete avoid nothing with left | ⟨gone, _⟩
  · rw [left, current, Option.filter_some, elected, lost]
    rfl
  · rw [gone]
    rfl

/-- A row whose time bucket is not covered at the end of the calendar is never swept. -/
theorem IsSound.isNeverSwept (h : archive.IsSound) (complete : archive.HasAllTables)
    (listed : (kind, descriptor) ∈ allTables)
    (nothing : archive.staged? descriptor.table id = none)
    (current : stored? archive.store descriptor.table id = some (some row))
    (read : bucket? row "time_bucket" = some bucket) {ttlDays : Nat}
    (beyond : descriptor.covers 0 (retentionEnd Instant.last ttlDays) bucket = false)
    : archive.IsNeverSwept descriptor.table id ttlDays := by
  refine ⟨row, fun steps avoid => ?_⟩
  have spared (now : Instant) : drops descriptor.table (cutoff now ttlDays) row = false := by
    refine Bool.eq_false_iff.mpr fun dropped => ?_
    have atLast := drops_cutoff_mono now.millis_le_last dropped
    rw [drops_eq_covers listed read, beyond] at atLast
    cases atLast
  have left := h.stored?_run complete (fun step member => (avoid step member).1) nothing
  rw [current] at left
  refine row?_eq_ok_some_iff.mpr (left.resolve_right ?_)
  rintro ⟨_, _, held, step, member, takes⟩
  cases held
  obtain ⟨_, keeps⟩ := avoid step member
  cases step with
  | sweep view registration days now =>
      cases keeps
      simp [ArchiveStep.takes, spared now] at takes
  | ingest | cycle | execute => cases takes

/-- The row of a place has a time bucket and lasts until a sweep covers it: from any instant on at
which it is covered a sweep that can read the table leaves no row, and the row stays for good if it
is not covered at the end of the calendar. The bucket of a window from 1970 on is covered once the
window has ended.
-/
structure LastsUntilCovered (archive : Archive S) (descriptor : Descriptor) (id : String)
    (bucket : Int)
    : Prop where
  current : ∃ row, archive.row? descriptor.table id = .ok (some row)
    ∧ bucket? row "time_bucket" = some bucket
  swept (ttlDays : Nat) (start : Instant)
    : descriptor.covers 0 (retentionEnd start ttlDays) bucket = true →
      archive.IsSweptFrom descriptor.table id ttlDays start
  spared (ttlDays : Nat)
    : descriptor.covers 0 (retentionEnd .last ttlDays) bucket = false →
      archive.IsNeverSwept descriptor.table id ttlDays
  ended (granularity : Granularity) (window : Instant)
    : descriptor.retention = some ⟨"time_bucket", granularity⟩ →
      granularity.windowStart? bucket = some window → 0 ≤ window.millis →
      ∀ ttlDays now, descriptor.covers 0 (retentionEnd now ttlDays) bucket = true
        ↔ window.millis + granularity.windowLength window ≤ cutoff now ttlDays

theorem IsSound.lastsUntilCovered (h : archive.IsSound) (complete : archive.HasAllTables)
    (listed : (kind, descriptor) ∈ allTables)
    (nothing : archive.staged? descriptor.table id = none)
    (current : stored? archive.store descriptor.table id = some (some row))
    (read : bucket? row "time_bucket" = some bucket)
    : archive.LastsUntilCovered descriptor id bucket where
  current := ⟨row, row?_eq_ok_some_iff.mpr current, read⟩
  swept _ _ covered := h.isSweptFrom complete listed nothing current read covered
  spared _ beyond := h.isNeverSwept complete listed nothing current read beyond
  ended granularity window kept named since1970 ttlDays now := by
    rw [← drops_eq_covers listed read, drops_eq_of_mem listed]
    exact drops_iff_ended kept (horizon now ttlDays) read named since1970

-----------------------------------------------------------------------------------------
-- Rows of accepted records
-----------------------------------------------------------------------------------------

/-- A record that a collector accepts goes to the table that the services name. If the table has
retention and a later cycle writes what is staged for the record, its row has a time bucket, which
is that of the record unless something else of another bucket was there or was brought there in
between. As long as nothing more is brought there, the row is gone in every sweep that can read the
table from an instant on at which its bucket is covered, and it is never swept if there is no such
instant.
-/
theorem accepted_rows_last_until_covered {store : Backend} {mode : MergeMode}
    {steps : List ArchiveStep} {deployment next : Deployment} {name : String}
    {record : StreamRecord}
    (tables : deployment.archive? name = some ((onStore store mode).run steps))
    (accepted : Deployment.accept name record deployment = (.ok (), next))
    : ∃ collector descriptor dispatched,
        deployment.collectors.get? name = some collector
        ∧ sinkTable collector.running.manager record.kind record.granularity
          = .ok descriptor.table
        ∧ (record.kind, descriptor) ∈ allTables
        ∧ next.archive? name = some dispatched
        ∧ (descriptor.retention ≠ none → ∀ between timeout deadline operation,
            let place := (descriptor.table, record.record.id)
            let staged := dispatched.run between
            staged.operation? descriptor.table record.record.id = some operation →
            (HasPlainForm.kind staged.store).drops deadline = false →
            ∃ bucket,
              (staged.cycle timeout deadline).archive.LastsUntilCovered descriptor
                record.record.id bucket
              ∧ (((onStore store mode).run steps).IsDated descriptor.table record.record.id
                  record.record.timeBucket →
                (∀ step ∈ between, step.Avoids place) → bucket = record.record.timeBucket)) := by
  obtain ⟨collector, table, answer, found, routed, ingested, left⟩ :=
    Deployment.accept_eq_ok tables accepted
  have sound : ((onStore store mode).run steps).IsSound := (isSound_onStore store mode).run steps
  have complete : ((onStore store mode).run steps).HasAllTables :=
    (hasAllTables_onStore store mode).run steps
  have step : ((onStore store mode).run steps).step (.ingest record.kind table record.record)
      = answer.2 := by
    simp [Archive.step, ingested, Except.toOption]
  cases working : ((onStore store mode).run steps).worker? record.kind table with
  | none =>
      rw [ingest_of_no_worker working] at ingested
      cases ingested
  | some worker =>
      have own := sound table _ (worker?_eq_some working)
      have named : worker.descriptor.table = table := own.named
      have listed : (record.kind, worker.descriptor) ∈ allTables := own.listed
      subst named
      have soundNext : answer.2.IsSound := step ▸ sound.step _
      have completeNext : answer.2.HasAllTables := step ▸ complete.step _
      refine ⟨collector, worker.descriptor, answer.2, found, routed, listed, left, ?_⟩
      intro kept between timeout deadline operation place staged drained inTime
      obtain ⟨retention, kept⟩ := Option.ne_none_iff_exists'.mp kept
      have soundThen : staged.IsSound := soundNext.run between
      have completeThen : staged.HasAllTables := completeNext.run between
      obtain ⟨row, bucket, current, read, same⟩ :=
        soundThen.exists_row_of_cycle listed kept drained timeout inTime
      refine ⟨bucket, ?_, fun dated avoid => same _ ?_⟩
      · exact (soundThen.cycle timeout deadline).lastsUntilCovered
          (completeThen.step (.cycle timeout deadline)) listed
          (soundThen.staged?_cycle timeout deadline _ _) current read
      · have bucketed := (bucketed_of_retention listed kept).2.2
        exact (dated.ingest bucketed ingested).run soundNext completeNext listed kept avoid

/-- A collector that takes CPU metrics of days and has no rows yet. -/
def cpuCollector : Deployment :=
  let sinks : Pyramid String := .ofList [(.day, "day_cpu_metric")]
  let services : Module.Registry Service :=
    ⟨storageModule, .ofList [((Interface.sinkLevels .cpuMetric).name, .tableLevels sinks)]⟩
  let manager : Module.Manager Service := ⟨[⟨storageModule, "memory", .ready, services⟩]⟩
  let storage : StorageState := { archive := .onStore (.ofKind .memory) .lenient }
  { collectors := (∅ : KeyMap Instance).insert "collector"
      ⟨⟨manager, []⟩, "collector", sharedNetwork, some storage⟩ }

/-- A CPU metric of one instance for the table of days. -/
def cpuOfDay (bucket : Int64) : StreamRecord :=
  ⟨.cpuMetric, some .day,
    ⟨[.string "a", .string "m", .long bucket, .integer 1, .double ⟨0⟩, .long 1], rfl⟩⟩

theorem archive?_cpuCollector
    : cpuCollector.archive? "collector" = some (onStore (.ofKind .memory) .lenient) := by
  simp [Deployment.archive?, cpuCollector, KeyMap.get?_insert]

theorem sinkTable_cpuCollector {collector : Instance}
    (found : cpuCollector.collectors.get? "collector" = some collector)
    : sinkTable collector.running.manager .cpuMetric (some .day) = .ok "day_cpu_metric" := by
  cases found.symm.trans (KeyMap.get?_insert _ _ _ _)
  exact ok_of_toOption (by decide +kernel)

/-- The collector accepts a record of 6 January 2024, and a cycle has an operation for it and is not
dropped.
-/
theorem accept_cpuOfDay
    : let taken := Deployment.accept "collector" (cpuOfDay 20240106) cpuCollector
      taken.1 = .ok ()
      ∧ ∀ dispatched, taken.2.archive? "collector" = some dispatched →
          (∃ operation, dispatched.operation? "day_cpu_metric" "a" = some operation)
          ∧ (HasPlainForm.kind dispatched.store).drops (.undelayed 30000) = false := by
  intro taken
  have evaluated : (taken.1.isOk && (taken.2.archive? "collector").all fun dispatched =>
      (dispatched.operation? "day_cpu_metric" "a").isSome
        && !(HasPlainForm.kind dispatched.store).drops (.undelayed 30000)) = true := by
    decide +kernel
  rw [Bool.and_eq_true] at evaluated
  obtain ⟨accepted, writes⟩ := evaluated
  refine ⟨(exists_of_isOk accepted).choose_spec, fun dispatched found => ?_⟩
  rw [found, Option.all_some, Bool.and_eq_true, Bool.not_eq_true'] at writes
  exact ⟨Option.isSome_iff_exists.mp writes.1, writes.2⟩

/-- A record of 6 January 2024 goes for good on 9 January if three days are kept. -/
theorem accepted_rows_last_until_covered_of_day
    : let taken := Deployment.accept "collector" (cpuOfDay 20240106) cpuCollector
      taken.1 = .ok ()
      ∧ ∃ dispatched, taken.2.archive? "collector" = some dispatched
        ∧ (dispatched.cycle 30000).archive.IsSweptFrom "day_cpu_metric" "a" 3
          ⟨1704758400000, by decide⟩ := by
  intro taken
  obtain ⟨accepted, writes⟩ := accept_cpuOfDay
  let empty : Archive Backend := onStore (.ofKind .memory) .lenient
  have tables : cpuCollector.archive? "collector" = some (empty.run []) := archive?_cpuCollector
  obtain ⟨collector, descriptor, dispatched, found, routed, listed, left, lasts⟩ :=
    accepted_rows_last_until_covered tables (Prod.ext accepted rfl : taken = (.ok (), taken.2))
  refine ⟨accepted, dispatched, left, ?_⟩
  have known : (RecordKind.cpuMetric, Descriptor.bucketed "day_cpu_metric" .day) ∈ allTables := by
    decide
  have named : descriptor.table = "day_cpu_metric" :=
    Except.ok.inj (routed.symm.trans (sinkTable_cpuCollector found))
  cases eq_of_tableName listed known named
  obtain ⟨⟨operation, drained⟩, inTime⟩ := writes dispatched left
  obtain ⟨bucket, row, same⟩ := lasts (by decide) [] 30000 _ operation drained inTime
  have unused : (empty.run []).IsDated "day_cpu_metric" "a" 20240106 := by
    refine isDated_of_unused (Option.isNone_iff_eq_none.mp ?_)
      (Option.isNone_iff_eq_none.mp ?_) <;> decide +kernel
  obtain rfl := same unused (by simp)
  exact row.swept 3 _ (by decide +kernel)

/-- A record with the time bucket zero is accepted and written, but there is no instant from which
on elected sweeps leave no row.
-/
theorem zero_bucket_is_never_swept
    : let taken := Deployment.accept "collector" (cpuOfDay 0) cpuCollector
      let keeper : Cluster.Registration := ⟨storageModule, "memory", "keeper", 0⟩
      let view : Cluster.View := ⟨storageModule, [keeper]⟩
      taken.1.isOk = true
      ∧ ∃ dispatched, taken.2.archive? "collector" = some dispatched
        ∧ (dispatched.cycle 30000).result.isOk = true
        ∧ view.isElected keeper = true
        ∧ ¬∃ start : Instant, ∀ now : Instant, start.millis ≤ now.millis →
          ((dispatched.cycle 30000).archive.sweep view keeper 3 now).archive.row?
            "day_cpu_metric" "a" = .ok none := by
  intro taken keeper view
  have kept : (taken.1.isOk && (taken.2.archive? "collector").any fun dispatched =>
      (dispatched.cycle 30000).result.isOk
        && (((dispatched.cycle 30000).archive.sweep view keeper 3 .last).archive.row?
          "day_cpu_metric" "a").toOption.join.isSome) = true := by
    decide +kernel
  rw [Bool.and_eq_true, Option.any_eq_true] at kept
  obtain ⟨accepted, dispatched, found, kept⟩ := kept
  obtain ⟨written, stays⟩ := (Bool.and_eq_true _ _).mp kept
  refine ⟨accepted, dispatched, found, written, rfl, ?_⟩
  rintro ⟨start, swept⟩
  rw [swept .last start.millis_le_last] at stays
  exact absurd stays (by decide)

end Archive

end Collector

end Telemetry
