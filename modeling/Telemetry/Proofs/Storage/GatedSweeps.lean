import Telemetry.Proofs.Cluster.Elections
import Telemetry.Proofs.Storage.RetentionSweep

/-! Who sweeps, and what a failing target does to a sweep. Only the elected keeper calls its
targets, each of them once and all with the same range. A target that fails is reported, and the
others do what they would do without it.
-/

namespace Telemetry.Storage

variable {σ : Type}

-----------------------------------------------------------------------------------------
-- Calls of targets
-----------------------------------------------------------------------------------------

/-- A call of a target with its range and its answer. -/
structure TargetCall (σ : Type) where
  target : Target σ
  first : Int
  last : Int
  answer : Except Error Nat

namespace TargetCall

def request (call : TargetCall σ) : Target σ × Int × Int :=
  (call.target, call.first, call.last)

/-- What a sweep learns from a call. -/
def report (call : TargetCall σ) : String × Except Error Nat :=
  (call.target.table, call.answer)

/-- What calls add up to is what a sweep learns from them. -/
theorem answers_eq (calls : List (TargetCall σ))
    : Answers.deleted (calls.map report) = (calls.map fun call => call.answer.toOption.getD 0).sum
      ∧ Answers.swept (calls.map report) = (calls.filter (·.answer.isOk)).length
      ∧ Answers.failed (calls.map report)
        = (calls.filter (!·.answer.isOk)).map (·.target.table) := by
  refine ⟨?_, ?_, ?_⟩
  · rw [Answers.deleted, List.map_map]
    rfl
  · rw [Answers.swept, List.filter_map, List.length_map]
    rfl
  · rw [Answers.failed, List.filter_map, List.map_map]
    rfl

end TargetCall

namespace Target

/-- The target that notes every call of it beside the state. -/
def observed (target : Target σ) : Target (σ × List (TargetCall σ)) :=
  ⟨target.table, fun first last (state, calls) =>
    let (answer, state) := target.deleteHistory first last state
    (answer, state, calls ++ [⟨target, first, last, answer⟩])⟩

/-- The calls of some targets, each in the state that the ones before it left. -/
def calls (first last : Int) : List (Target σ) → σ → List (TargetCall σ)
  | [], _ => []
  | target :: rest, state =>
      ⟨target, first, last, (target.deleteHistory first last state).1⟩
        :: calls first last rest (target.deleteHistory first last state).2

/-- The target as it is if it is to fail with an error, which leaves the state alone. -/
def failingWith (target : Target σ) : Option Error → Target σ
  | none => target
  | some error => { target with deleteHistory := fun _ _ state => (.error error, state) }

variable (first last : Int)

/-- The targets are called once each, in order and with the same range, by induction over them. -/
theorem map_request_calls (targets : List (Target σ)) (state : σ)
    : (calls first last targets state).map TargetCall.request
      = targets.map fun target => (target, first, last) := by
  induction targets generalizing state with
  | nil => rfl
  | cons target rest ih => rw [calls, List.map_cons, ih]; rfl

theorem map_report_calls (targets : List (Target σ)) (state : σ)
    : (callAll first last targets state).1
      = (calls first last targets state).map TargetCall.report := by
  induction targets generalizing state with
  | nil => rfl
  | cons target rest ih => rw [calls, List.map_cons, ← ih]; rfl

/-- Observed targets do what they do otherwise, and note their calls, by induction over them. -/
theorem callAll_observed (targets : List (Target σ)) (state : σ) (earlier : List (TargetCall σ))
    : callAll first last (targets.map observed) (state, earlier)
      = ((callAll first last targets state).1, (callAll first last targets state).2,
        earlier ++ calls first last targets state) := by
  induction targets generalizing state earlier with
  | nil => simp [callAll, calls]
  | cons target rest ih =>
      rw [List.map_cons, callAll, callAll, calls]
      simp only [observed, ih, List.append_assoc, List.singleton_append]

/-- Some targets, of which those with an error are to fail. -/
def impaired (marked : List (Target σ × Option Error)) : List (Target σ) :=
  marked.map fun entry => entry.1.failingWith entry.2

/-- The targets that are not to fail. -/
def unimpaired (marked : List (Target σ × Option Error)) : List (Target σ) :=
  (marked.filter (·.2.isNone)).map (·.1)

/-- Targets that fail change nothing for the others, by induction over the targets. -/
theorem calls_impaired (marked : List (Target σ × Option Error)) (state : σ)
    : ((marked.zip (calls first last (impaired marked) state)).filter (·.1.2.isNone)).map (·.2)
        = calls first last (unimpaired marked) state
      ∧ (callAll first last (impaired marked) state).2
        = (callAll first last (unimpaired marked) state).2
      ∧ (callAll first last (impaired marked) state).1.deleted
        = (callAll first last (unimpaired marked) state).1.deleted := by
  induction marked generalizing state with
  | nil => exact ⟨rfl, rfl, rfl⟩
  | cons entry rest ih =>
      obtain ⟨target, error?⟩ := entry
      cases error? with
      | none =>
          obtain ⟨calls, left, deleted⟩ := ih (target.deleteHistory first last state).2
          refine ⟨?_, left, ?_⟩
          · exact congrArg (List.cons _) calls
          · exact congrArg (_ + ·) deleted
      | some error =>
          obtain ⟨calls, left, deleted⟩ := ih state
          refine ⟨calls, left, ?_⟩
          exact (Nat.zero_add _).trans deleted

end Target

-----------------------------------------------------------------------------------------
-- Sweeps
-----------------------------------------------------------------------------------------

/-- A sweep whose targets note their calls. -/
def observedSweep (targets : List (Target σ)) (view : Cluster.View)
    (registration : Cluster.Registration) (ttlDays : Nat) (now : Instant) (state : σ)
    : Swept (σ × List (TargetCall σ)) :=
  sweep (targets.map Target.observed) view registration ttlDays now (state, [])

variable {targets : List (Target σ)} {view : Cluster.View} {registration : Cluster.Registration}

/-- Without being elected a keeper does nothing. -/
theorem sweep_of_not_elected (other : view.isElected registration = false) (ttlDays : Nat)
    (now : Instant) (state : σ)
    : sweep targets view registration ttlDays now state
      = ⟨⟨false, retentionEnd now ttlDays, 0, 0, []⟩, [.level .retentionElectionState 0], state⟩ := by
  simp [sweep, other]

/-- The elected keeper calls its targets and adds their answers up. -/
theorem sweep_of_elected (elected : view.isElected registration = true) (ttlDays : Nat)
    (now : Instant) (state : σ)
    : let run := Target.callAll 0 (retentionEnd now ttlDays) targets state
      sweep targets view registration ttlDays now state
        = ⟨⟨true, retentionEnd now ttlDays, run.1.deleted, run.1.swept, run.1.failed⟩,
          .level .retentionElectionState 1 :: run.1.flatMap measureAnswer, run.2⟩ := by
  simp [sweep, elected, Answers.foldl_add]

variable (targets) (view) (registration) (ttlDays : Nat) (now : Instant) (state : σ)

/-- An observed sweep is the sweep with its calls noted beside the state. -/
theorem observedSweep_eq
    : let swept := sweep targets view registration ttlDays now state
      observedSweep targets view registration ttlDays now state
        = ⟨swept.report, swept.measurements, swept.state,
          if view.isElected registration then
            Target.calls 0 (retentionEnd now ttlDays) targets state
          else []⟩ := by
  unfold observedSweep
  cases elected : view.isElected registration with
  | false => simp [sweep_of_not_elected elected]
  | true => simp [sweep_of_elected elected, Target.callAll_observed]

-----------------------------------------------------------------------------------------
-- Keepers
-----------------------------------------------------------------------------------------

/-- Who sweeps what, with the view of the members that it reads. -/
structure Keeper (σ : Type) where
  targets : List (Target σ)
  view : Cluster.View
  registration : Cluster.Registration
  ttlDays : Nat

namespace Keeper

def sweep (keeper : Keeper σ) (now : Instant) (state : σ) : Swept σ :=
  Storage.sweep keeper.targets keeper.view keeper.registration keeper.ttlDays now state

/-- Whether a keeper deletes nothing at any instant in any state. -/
def IsIdle (keeper : Keeper σ) : Prop :=
  ∀ now state, (keeper.sweep now state).report.deleted = 0 ∧ (keeper.sweep now state).state = state

/-- Of two keepers for different members that read equal views one is idle. -/
theorem isIdle_or_isIdle {first second : Keeper σ} (views : first.view.peers = second.view.peers)
    (differ : first.registration.sameMember second.registration = false)
    : first.IsIdle ∨ second.IsIdle := by
  have idle {keeper : Keeper σ} (other : keeper.view.isElected keeper.registration = false)
      : keeper.IsIdle := by
    intro now state
    rw [sweep, sweep_of_not_elected other]
    exact ⟨rfl, rfl⟩
  cases electsFirst : first.view.isElected first.registration with
  | false => exact .inl (idle electsFirst)
  | true =>
      refine .inr (idle (Bool.eq_false_iff.mpr fun electsSecond => ?_))
      have elects : first.view.isElected second.registration = true := by
        rw [Cluster.View.isElected, Cluster.View.elected?, views]
        exact electsSecond
      have same := Cluster.View.sameMember_of_isElected electsFirst elects
      exact Bool.noConfusion (same.symm.trans differ)

end Keeper

-----------------------------------------------------------------------------------------
-- Gates and failures
-----------------------------------------------------------------------------------------

/-- A sweep for a registration that is not elected calls no target and reports nothing. An elected
one calls every target once, in order and with the same range, and reports the rows that went, how
many targets succeeded, and which tables failed. Whichever targets are made to fail, the others are
called and answer as they do without them. Of any number of keepers for different members that read
equal views all but one are idle.
-/
theorem sweeps_are_gated_and_tolerant
    : let swept := sweep targets view registration ttlDays now state
      let observed := observedSweep targets view registration ttlDays now state
      let calls := observed.state.2
      (observed.report = swept.report ∧ observed.state.1 = swept.state)
      ∧ (view.isElected registration = false → calls = [] ∧ swept.state = state
          ∧ swept.report = ⟨false, retentionEnd now ttlDays, 0, 0, []⟩)
      ∧ (view.isElected registration = true →
          calls.map TargetCall.request
            = targets.map (fun target => (target, 0, retentionEnd now ttlDays))
          ∧ swept.report =
            { elected := true
              endMillis := retentionEnd now ttlDays
              deleted := (calls.map fun call => call.answer.toOption.getD 0).sum
              sweptTables := (calls.filter (·.answer.isOk)).length
              failedTables := (calls.filter (!·.answer.isOk)).map (·.target.table) }
          ∧ swept.report.sweptTables + swept.report.failedTables.length = targets.length)
      ∧ (∀ marked : List (Target σ × Option Error), targets = Target.impaired marked →
          let others := sweep (Target.unimpaired marked) view registration ttlDays now state
          let observedOthers :=
            observedSweep (Target.unimpaired marked) view registration ttlDays now state
          ((marked.zip calls).filter (·.1.2.isNone)).map (·.2) = observedOthers.state.2
          ∧ swept.state = others.state ∧ swept.report.deleted = others.report.deleted)
      ∧ ∀ keepers : List (Keeper σ), (∀ keeper ∈ keepers, keeper.view.peers = view.peers) →
          keepers.Pairwise (fun first second =>
            first.registration.sameMember second.registration = false) →
          keepers.Pairwise fun first second => first.IsIdle ∨ second.IsIdle := by
  intro swept observed calls
  have noted : observed = _ := observedSweep_eq targets view registration ttlDays now state
  have noted_calls : calls = if view.isElected registration then
      Target.calls 0 (retentionEnd now ttlDays) targets state else [] := by
    simp only [calls, noted]
  refine ⟨by rw [noted]; exact ⟨rfl, rfl⟩, fun other => ?_, fun elected => ?_, ?_, ?_⟩
  · rw [noted_calls, other]
    exact ⟨rfl, congrArg Swept.state (sweep_of_not_elected other ttlDays now state),
      congrArg Swept.report (sweep_of_not_elected other ttlDays now state)⟩
  · rw [elected, if_pos rfl] at noted_calls
    have requests := Target.map_request_calls 0 (retentionEnd now ttlDays) targets state
    have answers := Target.map_report_calls 0 (retentionEnd now ttlDays) targets state
    rw [← noted_calls] at requests answers
    have run : swept.report = _ :=
      congrArg Swept.report (sweep_of_elected elected ttlDays now state)
    rw [answers] at run
    have total := Answers.swept_add_failed (calls.map TargetCall.report)
    obtain ⟨deleted, succeeded, failed⟩ := TargetCall.answers_eq calls
    refine ⟨requests, ?_, ?_⟩
    · rw [run, deleted, succeeded, failed]
    · rw [run]
      refine total.trans ?_
      rw [List.length_map, ← List.length_map TargetCall.request, requests, List.length_map]
  · rintro marked rfl others observedOthers
    obtain ⟨sameCalls, left, deleted⟩ :=
      Target.calls_impaired 0 (retentionEnd now ttlDays) marked state
    have notedOthers : observedOthers = _ := observedSweep_eq _ view registration ttlDays now state
    cases elected : view.isElected registration with
    | false =>
        rw [noted_calls, notedOthers, elected]
        simp [swept, others, sweep_of_not_elected elected]
    | true =>
        rw [noted_calls, notedOthers, elected]
        simp only [swept, others, sweep_of_elected elected]
        exact ⟨sameCalls, left, deleted⟩
  · intro keepers views differ
    refine differ.imp_of_mem fun {first second} inFirst inSecond differ => ?_
    exact Keeper.isIdle_or_isIdle ((views first inFirst).trans (views second inSecond).symm) differ

/-- The table in the middle fails, and the sweep goes on to the last one. -/
example
    : let holding (table : String) (count : Nat) : Target Unit :=
        ⟨table, fun _ _ state => (.ok count, state)⟩
      let keeper : Cluster.Registration := ⟨"storage", "keeper", "keeper-1", 0⟩
      (sweep [holding "a" 2, .failing "b", holding "c" 1] ⟨"storage", [keeper]⟩ keeper 1
        ⟨0, by decide⟩ ()).report = ⟨true, -1, 3, 2, ["b"]⟩ := by
  decide

end Telemetry.Storage
