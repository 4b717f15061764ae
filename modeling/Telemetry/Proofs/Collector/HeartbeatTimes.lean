import Telemetry.Proofs.Collector.UntouchedPlaces

/-! The times of registered instances. A cycle that refreshes the row of an instance moves its time
to that of the heartbeat accepted last, whether this is later or earlier, and no other step moves it.
So the times of a row are among those that came, in the order in which they came.
-/

namespace Telemetry.Collector

open Storage HasPlainForm

-----------------------------------------------------------------------------------------
-- Heartbeats
-----------------------------------------------------------------------------------------

abbrev Heartbeat : Type :=
  RecordKind.instanceHeartBeat.Carrier

def instances : Descriptor :=
  .inPlace "instance" ["heart_beat_time"]

def heartBeatColumn : Column :=
  ⟨"heart_beat_time", .long, .coverMerge⟩

theorem instances_mem_allTables : (RecordKind.instanceHeartBeat, instances) ∈ allTables := by
  decide

namespace Heartbeat

theorem exists_time (beat : Heartbeat)
    : ∃ number, beat.value heartBeatColumn = .long number ∧ beat.timeBucket = number.toInt :=
  Record.exists_timeBucket_of_column rfl (by decide) rfl beat

/-- A merged heartbeat has the time of the later one. -/
theorem timeBucket_of_merge {mode : MergeMode} {existing incoming merged : Heartbeat}
    (h : mode.merge existing incoming = .ok merged)
    : merged.timeBucket = incoming.timeBucket := by
  obtain ⟨number, value, time⟩ := incoming.exists_time
  obtain ⟨other, valueMerged, timeMerged⟩ := merged.exists_time
  have same : merged.value heartBeatColumn = incoming.value heartBeatColumn :=
    Record.value_of_coverMerge h (by decide) rfl
  rw [value, valueMerged] at same
  rw [time, timeMerged, ColumnValue.long.inj same]

/-- A row shows the time of the heartbeat that updated it. -/
theorem bucket?_overwrite {kind : BackendKind} {row document : Document} {beat : Heartbeat}
    (written : kind.row (overwrite row (instances.restrict beat.document)) = some document)
    : bucket? document "heart_beat_time" = some beat.timeBucket := by
  obtain ⟨number, value, time⟩ := beat.exists_time
  obtain ⟨_, rfl⟩ := kind.row_eq_some_iff.mp written
  have written : beat.document.get? "heart_beat_time" = some (.int number.toInt) := by
    have held := beat.get?_document (show heartBeatColumn ∈ _ by decide)
    rw [value] at held
    exact held
  rw [time]
  refine bucket?_kept_of_get? kind ?_
  simp only [overwrite, KeyMap.get?_insertAll_entries, Descriptor.restrict, instances,
    Descriptor.inPlace, KeyMap.get?_filter, written]
  rfl

/-- A worker that takes a heartbeat stages its time. -/
theorem timeBucket_of_ingest {worker next : Worker Heartbeat} {beat : Heartbeat}
    {what : Worker.Ingested} (ingested : worker.ingest beat = .ok (what, next))
    : ∃ held, next.staged.get? beat.id = some held ∧ held.timeBucket = beat.timeBucket := by
  have own : beat.id = StreamData.id beat := rfl
  cases before : worker.staged.get? beat.id with
  | none =>
      cases (Worker.ingest_of_absent before).symm.trans ingested
      exact ⟨beat, by rw [Worker.get?_staged_hold, if_pos own], rfl⟩
  | some earlier =>
      obtain ⟨merged, merges, made⟩ :=
        map_eq_ok.mp ((Worker.ingest_of_staged before).symm.trans ingested)
      cases made
      exact ⟨merged, by rw [Worker.get?_staged_hold, if_pos own], timeBucket_of_merge merges⟩

end Heartbeat

namespace ArchiveStep

/-- The time of the heartbeat that a step brings to an instance. -/
def beat? (id : String) : ArchiveStep → Option Int
  | .ingest .instanceHeartBeat table beat =>
      if (table, beat.id) = ("instance", id) then some beat.timeBucket else none
  | _ => none

/-- The step brings no operation from elsewhere to a place. -/
def Spares (place : String × String) : ArchiveStep → Prop
  | .execute operations => ∀ operation ∈ operations, operation.key ≠ place
  | _ => True

end ArchiveStep

namespace Archive

variable {S : Type} [TableStore S]

/-- The time of a registered instance. -/
def time? (archive : Archive S) (id : String) : Option Int :=
  (archive.row? "instance" id).toOption.join.bind (bucket? · "heart_beat_time")

/-- The time of the heartbeat that is staged for an instance. -/
def stagedTime? {S : Type} (archive : Archive S) (id : String) : Option Int :=
  (archive.staged? "instance" id).map (·.2.timeBucket)

/-- The time of the heartbeat accepted last for an instance after one more step. A cycle starts
anew.
-/
def lastAccepted? (archive : Archive S) (id : String) (last : Option Int)
    : ArchiveStep → Option Int
  | .ingest kind table record =>
      if (table, record.id) = ("instance", id) ∧ (archive.answer kind table record).isOk then
        some record.timeBucket
      else last
  | .cycle .. => none
  | _ => last

/-- The time of the heartbeat that a run accepts last for an instance after its last cycle. -/
def lastBeat? (archive : Archive S) (id : String) (last : Option Int)
    : List ArchiveStep → Option Int
  | [] => last
  | step :: rest => (archive.step step).lastBeat? id (archive.lastAccepted? id last step) rest

/-- Whether a cycle writes a heartbeat: the heartbeat is staged, it merges into what is read from
the row of the instance, and the batch is not dropped for its deadline.
-/
structure Refreshes [HasPlainForm S] (archive : Archive S) (mode : MergeMode) (deadline : Deadline)
    (id : String) (beat : Heartbeat) : Prop where
  staged : archive.staged? "instance" id = some ⟨.instanceHeartBeat, beat⟩
  merges : ∃ current merged, archive.fetch .instanceHeartBeat "instance" id = .ok (some current)
    ∧ mode.merge current beat = .ok merged
  inTime : (kind archive.store).drops deadline = false

theorem Refreshes.stagedTime?_eq [HasPlainForm S] {archive : Archive S} {mode : MergeMode}
    {deadline : Deadline} {id : String} {beat : Heartbeat}
    (h : archive.Refreshes mode deadline id beat)
    : archive.stagedTime? id = some beat.timeBucket := by
  rw [stagedTime?, h.staged]
  rfl

/-- Lenient merging writes every staged heartbeat in time, if the row can be read as one of the
instance.
-/
theorem Refreshes.of_lenient [HasPlainForm S] {archive : Archive S} {deadline : Deadline}
    {id : String} {beat current : Heartbeat}
    (staged : archive.staged? "instance" id = some ⟨.instanceHeartBeat, beat⟩)
    (fetched : archive.fetch .instanceHeartBeat "instance" id = .ok (some current))
    (same : current.id = beat.id) (inTime : (kind archive.store).drops deadline = false)
    : archive.Refreshes .lenient deadline id beat := by
  obtain ⟨merged, merges, _⟩ := Record.merge_lenient (by decide) same
  exact ⟨staged, ⟨current, merged, fetched, merges⟩, inTime⟩

-----------------------------------------------------------------------------------------
-- The rules of merging
-----------------------------------------------------------------------------------------

/-- All tables of an archive merge in one mode. -/
def MergesIn {S : Type} (archive : Archive S) (mode : MergeMode) : Prop :=
  ∀ name table, archive.tables.get? name = some table → table.worker.mode = mode

theorem mergesIn_onStore {S : Type} (store : S) (mode : MergeMode)
    : (onStore store mode).MergesIn mode := by
  intro name table found
  obtain ⟨_, _, _, rfl⟩ := of_get?_onStore found
  rfl

theorem MergesIn.step {archive : Archive S} {mode : MergeMode} (h : archive.MergesIn mode)
    (step : ArchiveStep)
    : (archive.step step).MergesIn mode := by
  cases step with
  | ingest kind table record =>
      rcases archive.step_ingest_cases kind table record with
        ⟨_, same⟩ | ⟨worker, what, next, found, ingested, _, reached⟩
      · rw [same]
        exact h
      · obtain ⟨total, rfl⟩ := Worker.ingest_eq_ok ingested
        have own : worker.mode = mode := h table _ (worker?_eq_some found)
        rw [reached]
        intro other bound shown
        rw [KeyMap.get?_insert] at shown
        split at shown
        next => cases shown; exact own
        next => exact h other bound shown
  | cycle timeout deadline =>
      intro name table found
      obtain ⟨before, bound, rfl⟩ := of_get?_cycle found
      have own : before.worker.mode = mode := h name before bound
      by_cases listed : name ∈ tableNames
      · rw [if_pos listed]
        exact own
      · rw [if_neg listed]
        exact own
  | sweep view registration ttlDays now => exact h
  | execute operations => exact h

theorem MergesIn.run {archive : Archive S} {mode : MergeMode} (h : archive.MergesIn mode)
    (steps : List ArchiveStep)
    : (archive.run steps).MergesIn mode := by
  induction steps generalizing archive with
  | nil => exact h
  | cons step rest ih => exact ih (h.step step)

-----------------------------------------------------------------------------------------
-- Staged heartbeats
-----------------------------------------------------------------------------------------

/-- The table of instances takes heartbeats alone. -/
theorem IsSound.table_instances {S : Type} {archive : Archive S} (h : archive.IsSound)
    {table : Table RecordKind.Carrier}
    (bound : archive.tables.get? "instance" = some table)
    : table.kind = .instanceHeartBeat ∧ table.descriptor = instances :=
  Prod.mk.inj (eq_of_tableName (h _ table bound).listed instances_mem_allTables
    (h _ table bound).named)

theorem IsSound.kind_eq_of_worker? {S : Type} {archive : Archive S} (h : archive.IsSound)
    {kind : RecordKind} {worker : Worker kind.Carrier}
    (found : archive.worker? kind "instance" = some worker)
    : kind = .instanceHeartBeat :=
  (h.table_instances (worker?_eq_some found)).1

/-- A record that is staged for an instance is a heartbeat. -/
theorem IsSound.exists_worker_of_staged? {S : Type} {archive : Archive S} {id : String}
    (h : archive.IsSound) {record : Sigma RecordKind.Carrier}
    (shown : archive.staged? "instance" id = some record)
    : ∃ (worker : Worker Heartbeat) (beat : Heartbeat),
        archive.tables.get? "instance" = some ⟨.instanceHeartBeat, worker⟩
        ∧ worker.descriptor = instances ∧ worker.staged.get? id = some beat
        ∧ beat.id = id ∧ record = ⟨.instanceHeartBeat, beat⟩ := by
  obtain ⟨⟨kind, worker⟩, bound, more⟩ := Option.bind_eq_some_iff.mp shown
  obtain ⟨beat, staged, made⟩ := Option.map_eq_some_iff.mp more
  obtain ⟨same, rules⟩ := h.table_instances bound
  have keyed := (h _ _ bound).keyed id beat staged
  dsimp only at same
  subst same
  exact ⟨worker, beat, bound, rules, staged, keyed, made.symm⟩

variable [HasPlainForm S] {archive : Archive S} {id : String}

/-- A step stages the heartbeat that it accepts for an instance. -/
theorem IsSound.stagedTime?_step (h : archive.IsSound) (step : ArchiveStep) (id : String)
    : (archive.step step).stagedTime? id
      = archive.lastAccepted? id (archive.stagedTime? id) step := by
  cases step with
  | ingest kind table record =>
      by_cases here : (table, record.id) = ("instance", id)
      · obtain ⟨rfl, rfl⟩ := Prod.mk.inj here
        rcases archive.step_ingest_cases kind "instance" record with
          ⟨refused, same⟩ | ⟨worker, what, next, found, ingested, accepted, reached⟩
        · simp [lastAccepted?, refused, same]
        · obtain rfl := h.kind_eq_of_worker? found
          obtain ⟨held, staged, time⟩ := Heartbeat.timeBucket_of_ingest ingested
          simp [lastAccepted?, accepted, reached, stagedTime?, staged?, KeyMap.get?_insert, staged,
            time]
      · have same := (archive.matches_ingest kind table record).staged?_eq (Ne.symm here)
        simp only [lastAccepted?, here, false_and, if_false]
        exact congrArg (Option.map _) same
  | cycle timeout deadline =>
      exact congrArg (Option.map _) (h.staged?_cycle timeout deadline "instance" id)
  | sweep view registration ttlDays now => rfl
  | execute operations => rfl

theorem IsSound.stagedTime?_run (h : archive.IsSound) (steps : List ArchiveStep) (id : String)
    : (archive.run steps).stagedTime? id = archive.lastBeat? id (archive.stagedTime? id) steps := by
  induction steps generalizing archive with
  | nil => rfl
  | cons step rest ih =>
      rw [lastBeat?, ← h.stagedTime?_step]
      exact ih (h.step step)

theorem stagedTime?_onStore {S : Type} (store : S) (mode : MergeMode) (id : String)
    : (onStore store mode).stagedTime? id = none := by
  unfold stagedTime? staged?
  cases found : (onStore store mode).tables.get? "instance" with
  | none => rfl
  | some table =>
      obtain ⟨_, _, _, rfl⟩ := of_get?_onStore found
      rfl

-----------------------------------------------------------------------------------------
-- Cycles
-----------------------------------------------------------------------------------------

variable {mode : MergeMode} {deadline : Deadline}

theorem time?_eq (archive : Archive S) (id : String)
    : archive.time? id
      = (stored? archive.store "instance" id).join.bind (bucket? · "heart_beat_time") := by
  unfold time? row?
  rw [row?_eq_stored?]
  rcases stored? archive.store "instance" id with _ | _ | row <;> rfl

theorem fetch_eq_of_get? {S : Type} [TableStore S] {archive : Archive S} {kind : RecordKind}
    {name : String} {worker : Worker kind.Carrier}
    (bound : archive.tables.get? name = some ⟨kind, worker⟩) (id : String)
    : archive.fetch kind name id = worker.descriptor.fetch kind.Carrier archive.store id := by
  have found : archive.worker? kind name = some worker := by
    simp [worker?, bound]
  simp only [fetch, found]

/-- A cycle that refreshes an instance moves its time to that of the heartbeat. -/
theorem IsSound.time?_cycle_of_refreshes (h : archive.IsSound) (merging : archive.MergesIn mode)
    {beat : Heartbeat} (refreshes : archive.Refreshes mode deadline id beat) (timeout : Duration)
    : (archive.cycle timeout deadline).archive.time? id = some beat.timeBucket := by
  obtain ⟨worker, held, bound, rules, staged, rfl, same⟩ :=
    h.exists_worker_of_staged? refreshes.staged
  cases same
  obtain ⟨current, merged, fetched, merges⟩ := refreshes.merges
  rw [fetch_eq_of_get? bound] at fetched
  cases present : stored? archive.store worker.descriptor.table beat.id with
  | none => cases (Descriptor.fetch_absent present).symm.trans fetched
  | some held =>
      obtain ⟨row, record, rfl, same, decoded⟩ := Descriptor.fetch_eq_some present fetched
      cases same
      have prepared : worker.prepare archive.store beat
          = .ok ⟨.update, worker.descriptor.table, merged.id,
              worker.descriptor.restrict merged.document⟩ :=
        Worker.prepare_present present decoded (merging _ _ bound ▸ merges)
      have drained : archive.operation? "instance" beat.id
          = some ⟨.update, worker.descriptor.table, merged.id,
              worker.descriptor.restrict merged.document⟩ := by
        simp only [operation?, bound, Option.bind_some, staged, prepared, Except.toOption]
      obtain ⟨document, written⟩ := Worker.exists_written_of_prepare prepared
      rw [present] at written
      rw [rules] at present drained written
      have present : stored? archive.store "instance" beat.id = some (some row) := present
      have after : stored? (archive.cycle timeout deadline).archive.store "instance" beat.id
          = some (some document) := by
        rw [h.stored?_cycle, refreshes.inTime, drained, present]
        simp [Operation.after, written]
      rw [time?_eq, after, ← Heartbeat.timeBucket_of_merge merges]
      exact Heartbeat.bucket?_overwrite (Except.ok.inj written)

/-- A heartbeat for which a cycle drains an operation merges into what is read from the row. -/
theorem IsSound.exists_merged_of_operation? (h : archive.IsSound) (merging : archive.MergesIn mode)
    {row : Row} (present : stored? archive.store "instance" id = some row)
    {operation : Operation} (drained : archive.operation? "instance" id = some operation)
    : ∃ (beat current merged : Heartbeat),
        archive.staged? "instance" id = some ⟨.instanceHeartBeat, beat⟩
        ∧ archive.fetch .instanceHeartBeat "instance" id = .ok (some current)
        ∧ mode.merge current beat = .ok merged := by
  cases shown : archive.staged? "instance" id with
  | none =>
      rw [operation?_of_staged? shown] at drained
      cases drained
  | some record =>
      obtain ⟨worker, beat, bound, rules, staged, rfl, rfl⟩ := h.exists_worker_of_staged? shown
      simp only [operation?, bound, Option.bind_some, staged] at drained
      have prepared := ok_of_toOption drained
      rcases Worker.prepare_eq_ok prepared with
        ⟨absent, _⟩ | ⟨_, current, merged, read, decoded, merges, _⟩
      · rw [rules] at absent
        cases absent.symm.trans present
      · have fetched := Descriptor.fetch_present read decoded
        rw [merging _ _ bound] at merges
        exact ⟨beat, current, merged, rfl, (fetch_eq_of_get? bound beat.id).trans fetched, merges⟩

/-- A cycle that does not refresh an instance leaves its time. -/
theorem IsSound.time?_cycle_of_not_refreshes (h : archive.IsSound)
    (merging : archive.MergesIn mode) {time : Int} (registered : archive.time? id = some time)
    (stale : ¬∃ beat, archive.Refreshes mode deadline id beat) (timeout : Duration)
    : (archive.cycle timeout deadline).archive.time? id = some time := by
  rw [time?_eq] at registered ⊢
  obtain ⟨row, present, _⟩ := Option.bind_eq_some_iff.mp registered
  rw [h.stored?_cycle]
  split
  next => exact registered
  next late =>
    cases drained : archive.operation? "instance" id with
    | none => exact registered
    | some operation =>
        obtain ⟨beat, current, merged, staged, fetched, merges⟩ :=
          h.exists_merged_of_operation? merging (Option.join_eq_some_iff.mp present) drained
        exact absurd ⟨beat, staged, ⟨current, merged, fetched, merges⟩,
          Bool.eq_false_iff.mpr late⟩ stale

/-- A cycle moves the time of an instance to that of a staged heartbeat or leaves it. -/
theorem IsSound.time?_cycle_cases (h : archive.IsSound) (merging : archive.MergesIn mode)
    {time : Int} (registered : archive.time? id = some time) (timeout : Duration)
    (deadline : Deadline)
    : (∃ beat, archive.Refreshes mode deadline id beat
        ∧ (archive.cycle timeout deadline).archive.time? id = some beat.timeBucket)
      ∨ (¬∃ beat, archive.Refreshes mode deadline id beat)
        ∧ (archive.cycle timeout deadline).archive.time? id = some time := by
  by_cases refreshes : ∃ beat, archive.Refreshes mode deadline id beat
  · obtain ⟨beat, refreshes⟩ := refreshes
    exact .inl ⟨beat, refreshes, h.time?_cycle_of_refreshes merging refreshes timeout⟩
  · have kept := h.time?_cycle_of_not_refreshes merging registered refreshes timeout
    exact .inr ⟨refreshes, kept⟩

-----------------------------------------------------------------------------------------
-- Runs
-----------------------------------------------------------------------------------------

/-- What a step accepts last for an instance was there or came with the step. -/
theorem IsSound.lastAccepted?_sublist {S : Type} [TableStore S] {archive : Archive S} {id : String}
    (h : archive.IsSound) (last : Option Int) (step : ArchiveStep)
    : (archive.lastAccepted? id last step).toList.Sublist
        (last.toList ++ (step.beat? id).toList) := by
  cases step with
  | ingest kind table record =>
      simp only [lastAccepted?]
      split
      next accepted =>
        obtain ⟨here, taken⟩ := accepted
        obtain ⟨rfl, rfl⟩ := Prod.mk.inj here
        rcases archive.step_ingest_cases kind "instance" record with
          ⟨refused, _⟩ | ⟨worker, _, _, found, _⟩
        · cases refused.symm.trans taken
        · obtain rfl := h.kind_eq_of_worker? found
          simp [ArchiveStep.beat?]
      next => exact List.sublist_append_left ..
  | cycle timeout deadline => exact List.nil_sublist _
  | sweep view registration ttlDays now => exact List.sublist_append_left ..
  | execute operations => exact List.sublist_append_left ..

/-- No step but a cycle changes the time of an instance, unless an operation from elsewhere does. -/
theorem HasAllTables.stored?_instances_step (complete : archive.HasAllTables) {step : ArchiveStep}
    (spares : step.Spares ("instance", id))
    (noCycle : ∀ timeout deadline, step ≠ .cycle timeout deadline)
    : stored? (archive.step step).store "instance" id = stored? archive.store "instance" id := by
  cases step with
  | ingest kind table record =>
      rcases archive.step_ingest_cases kind table record with
        ⟨_, same⟩ | ⟨_, _, _, _, _, _, reached⟩
      · rw [same]
      · rw [reached]
  | cycle timeout deadline => exact absurd rfl (noCycle timeout deadline)
  | sweep view registration ttlDays now =>
      have spared (row : Row) : archive.loses "instance" (cutoff now ttlDays) row = false := by
        have kept (row : Document) : drops "instance" (cutoff now ttlDays) row = false :=
          (drops_eq_of_mem instances_mem_allTables (cutoff now ttlDays) row).trans
            (drops_eq_false_of_no_bucket instances_mem_allTables (.inl rfl) now ttlDays)
        cases row <;> simp [loses, kept]
      have swept := complete.stored?_sweep view registration ttlDays now "instance" id
      refine swept.trans ?_
      cases stored? archive.store "instance" id <;> simp [spared, Option.filter]
  | execute operations => exact stored?_execute_of_avoids archive spares

/-- The time of an instance and that of its staged heartbeat were there before a step or came with
it, in this order.
-/
theorem IsSound.times_step (h : archive.IsSound) (complete : archive.HasAllTables)
    (merging : archive.MergesIn mode) {step : ArchiveStep} (spares : step.Spares ("instance", id))
    {time : Int} (registered : archive.time? id = some time)
    : ∃ next, (archive.step step).time? id = some next
        ∧ (next :: ((archive.step step).stagedTime? id).toList).Sublist
            (time :: ((archive.stagedTime? id).toList ++ (step.beat? id).toList)) := by
  rw [h.stagedTime?_step]
  by_cases cycles : ∃ timeout deadline, step = .cycle timeout deadline
  · obtain ⟨timeout, deadline, rfl⟩ := cycles
    rcases h.time?_cycle_cases merging registered timeout deadline with
      ⟨beat, refreshes, moved⟩ | ⟨_, kept⟩
    · refine ⟨beat.timeBucket, moved, ?_⟩
      rw [refreshes.stagedTime?_eq]
      exact List.sublist_cons_self ..
    · exact ⟨time, kept, (List.nil_sublist _).cons_cons _⟩
  · simp only [not_exists] at cycles
    refine ⟨time, ?_, (h.lastAccepted?_sublist _ step).cons_cons _⟩
    rw [time?_eq] at registered ⊢
    rw [complete.stored?_instances_step spares cycles]
    exact registered

/-- The time of an instance and that of its staged heartbeat were there before a run or came with
it, in this order, by induction over the steps.
-/
theorem IsSound.times_run (h : archive.IsSound) (complete : archive.HasAllTables)
    (merging : archive.MergesIn mode) {steps : List ArchiveStep}
    (spare : ∀ step ∈ steps, step.Spares ("instance", id)) {time : Int}
    (registered : archive.time? id = some time)
    : ∃ next, (archive.run steps).time? id = some next
        ∧ (next :: ((archive.run steps).stagedTime? id).toList).Sublist
            (time :: ((archive.stagedTime? id).toList ++ steps.filterMap (·.beat? id))) := by
  induction steps generalizing archive time with
  | nil =>
      refine ⟨time, registered, ?_⟩
      rw [List.filterMap_nil, List.append_nil]
      exact List.Sublist.refl _
  | cons step rest ih =>
      obtain ⟨next, current, shown⟩ := h.times_step complete merging
        (spare step List.mem_cons_self) registered
      obtain ⟨last, reached, left⟩ := ih (h.step step) (complete.step step) (merging.step step)
        (fun later member => spare later (List.mem_cons_of_mem step member)) current
      refine ⟨last, reached, left.trans ?_⟩
      have both := shown.append_right (rest.filterMap (·.beat? id))
      have split : (step :: rest).filterMap (·.beat? id)
          = (step.beat? id).toList ++ rest.filterMap (·.beat? id) := by
        cases came : step.beat? id <;> simp [came]
      rw [split, ← List.append_assoc]
      exact both

/-- What a cycle does to the time of a registered instance, after any run and any further steps
that bring no operation from elsewhere to its row. The instance is still registered. If the cycle
writes a heartbeat, it moves the time to that of the heartbeat accepted last, and else it leaves the
time. So it moves the time back exactly if it writes a heartbeat from before that time, and never if
the heartbeats came in the order of their times.
-/
theorem cycles_move_time_to_last_heartbeat (store : Backend) (mode : MergeMode)
    (before steps : List ArchiveStep) (timeout : Duration) (deadline : Deadline) {id : String}
    {time : Int}
    (registered : ((onStore store mode).run before).time? id = some time)
    (spare : ∀ step ∈ steps, step.Spares ("instance", id))
    : let archive := (onStore store mode).run (before ++ steps)
      ∃ earlier later, archive.time? id = some earlier
        ∧ (archive.cycle timeout deadline).archive.time? id = some later
        ∧ (∀ beat, archive.Refreshes mode deadline id beat →
            later = beat.timeBucket
            ∧ (onStore store mode).lastBeat? id none (before ++ steps) = some later)
        ∧ ((¬∃ beat, archive.Refreshes mode deadline id beat) → later = earlier)
        ∧ (later < earlier
            ↔ ∃ beat, archive.Refreshes mode deadline id beat ∧ beat.timeBucket < earlier)
        ∧ ((time :: (((onStore store mode).lastBeat? id none before).toList
              ++ steps.filterMap (·.beat? id))).Pairwise (· ≤ ·) →
            earlier ≤ later) := by
  intro archive
  let start : Archive Backend := (onStore store mode).run before
  have soundStart : start.IsSound := (isSound_onStore store mode).run before
  have completeStart : start.HasAllTables := (hasAllTables_onStore store mode).run before
  have mergingStart : start.MergesIn mode := (mergesIn_onStore store mode).run before
  have continued : archive = start.run steps := List.foldl_append
  have sound : archive.IsSound := continued ▸ soundStart.run steps
  have merging : archive.MergesIn mode := continued ▸ mergingStart.run steps
  have accepted (steps : List ArchiveStep)
      : ((onStore store mode).run steps).stagedTime? id
        = (onStore store mode).lastBeat? id none steps := by
    rw [(isSound_onStore store mode).stagedTime?_run steps id, stagedTime?_onStore]
  obtain ⟨earlier, current, came⟩ :=
    soundStart.times_run completeStart mergingStart spare registered
  rw [← continued] at current came
  rw [accepted before] at came
  rcases sound.time?_cycle_cases merging current timeout deadline with
    ⟨beat, written, moved⟩ | ⟨stale, kept⟩
  · have same (other : Heartbeat) (too : archive.Refreshes mode deadline id other)
        : beat.timeBucket = other.timeBucket :=
      Option.some.inj (written.stagedTime?_eq.symm.trans too.stagedTime?_eq)
    refine ⟨earlier, beat.timeBucket, current, moved, fun other too => ⟨same other too, ?_⟩,
      fun none => absurd ⟨beat, written⟩ none, ⟨fun back => ⟨beat, written, back⟩, ?_⟩,
      fun inOrder => ?_⟩
    · exact (accepted (before ++ steps)).symm.trans written.stagedTime?_eq
    · rintro ⟨other, too, back⟩
      exact same other too ▸ back
    · rw [written.stagedTime?_eq] at came
      exact List.rel_of_pairwise_cons (inOrder.sublist came) List.mem_cons_self
  · refine ⟨earlier, earlier, current, kept, fun beat written => absurd ⟨beat, written⟩ stale,
      fun _ => rfl, ⟨fun back => absurd back (lt_irrefl earlier), ?_⟩, fun _ => le_rfl⟩
    rintro ⟨beat, written, _⟩
    exact absurd ⟨beat, written⟩ stale

/-- A heartbeat that comes late, behind a cycle that wrote a later one, moves the time back. -/
theorem cycles_move_time_to_last_heartbeat_late
    : let beat (time : Int64) : Heartbeat := ⟨[.string "12", .integer 12, .long time], rfl⟩
      let before : List ArchiveStep :=
        [.execute [⟨.insert, "instance", "12", (beat 50).document⟩]]
      let steps : List ArchiveStep :=
        [.ingest .instanceHeartBeat "instance" (beat 200), .cycle 20000 .ahead,
          .ingest .instanceHeartBeat "instance" (beat 100)]
      let empty : Archive Backend := onStore (.ofKind .memory) .lenient
      (empty.run before).time? "12" = some 50
        ∧ (∀ step ∈ steps, step.Spares ("instance", "12"))
        ∧ (empty.run (before ++ steps)).time? "12" = some 200
        ∧ ((empty.run (before ++ steps)).cycle 20000 .ahead).archive.time? "12" = some 100 := by
  intro beat before steps empty
  have registered : (empty.run before).time? "12" = some 50 := by
    decide +kernel
  have spare : ∀ step ∈ steps, step.Spares ("instance", "12") := by
    simp [steps, ArchiveStep.Spares]
  have shown : (empty.run (before ++ steps)).time? "12" = some 200 := by
    decide +kernel
  have refreshes : (empty.run (before ++ steps)).Refreshes .lenient .ahead "12" (beat 100) := by
    have inTime : (kind (empty.run (before ++ steps)).store).drops .ahead = false := by
      decide +kernel
    have fetched : (empty.run (before ++ steps)).fetch .instanceHeartBeat "instance" "12"
        = .ok (some (beat 200)) :=
      ok_of_toOption (by decide +kernel)
    exact .of_lenient (by decide +kernel) fetched rfl inTime
  obtain ⟨earlier, later, current, cycled, moved, _⟩ := cycles_move_time_to_last_heartbeat
    (.ofKind .memory) .lenient before steps 20000 .ahead registered spare
  rw [(moved (beat 100) refreshes).1] at cycled
  exact ⟨registered, spare, shown, cycled⟩

end Archive

end Telemetry.Collector
