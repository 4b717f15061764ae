import Telemetry.Calendar
import Telemetry.Cluster.View
import Telemetry.Metrics
import Telemetry.Storage.Descriptor

/-!
The retention sweep, which the elected instance runs over all tables. It removes the windows that
ended before the first day to keep; a table that fails does not stop the others.
-/

namespace Telemetry.Storage

/-- The number of days to keep if none is given. -/
def defaultTtlDays : Nat := 3

/-- The number of days to keep, zero standing for the default. -/
def effectiveTtlDays (ttlDays : Nat) : Nat :=
  if ttlDays = 0 then defaultTtlDays else ttlDays

theorem effectiveTtlDays_pos (ttlDays : Nat) : 0 < effectiveTtlDays ttlDays := by
  unfold effectiveTtlDays defaultTtlDays
  split <;> omega

/-- The last millisecond before the first day to keep. Days are counted back from the day of
`now`, which is the last of them, and not beyond the start of the calendar.
-/
def retentionEnd (now : Instant) (ttlDays : Nat) : Int :=
  let firstKept := now.dayNumber - (effectiveTtlDays ttlDays - 1 : Nat)
  max firstKept Instant.first.dayNumber * millisPerDay - 1

/-- A table from which a sweep removes old rows. -/
structure Target (σ : Type) where
  table : String
  deleteHistory : Int → Int → σ → Except Error Nat × σ

def Descriptor.target {S : Type} [TableStore S] (descriptor : Descriptor) : Target S :=
  ⟨descriptor.table, descriptor.deleteHistory⟩

/-- A target that always fails. -/
def Target.failing {σ : Type} (table : String) : Target σ :=
  ⟨table, fun _ _ state =>
    (.error (.backendUnavailable (.unreachable (table ++ " is broken"))), state)⟩

/-- The answers of targets by table, in the order of the calls. -/
abbrev Answers := List (String × Except Error Nat)

namespace Target

variable {σ : Type}

/-- Calls every target once, in order and with the same range. -/
def callAll (first last : Int) : List (Target σ) → σ → Answers × σ
  | [], state => ([], state)
  | target :: rest, state =>
      let (answer, state) := target.deleteHistory first last state
      let (answers, state) := callAll first last rest state
      ((target.table, answer) :: answers, state)

end Target

structure SweepReport where
  elected : Bool
  endMillis : Int
  deleted : Nat := 0
  sweptTables : Nat := 0
  failedTables : List String := []
  deriving DecidableEq

namespace SweepReport

/-- Adds the answer of one target. -/
def add (report : SweepReport) : String × Except Error Nat → SweepReport
  | (_, .ok count) =>
      { report with deleted := report.deleted + count, sweptTables := report.sweptTables + 1 }
  | (table, .error _) => { report with failedTables := report.failedTables ++ [table] }

end SweepReport

/-- The measurement of the answer of one target. -/
def measureAnswer : String × Except Error Nat → List Measurement
  | (table, .ok count) => if count = 0 then [] else [.count .retentionDeleted (some table) count]
  | (_, .error _) => [.count .retentionFailures none 1]

structure Swept (σ : Type) where
  report : SweepReport
  measurements : List Measurement
  state : σ

/-- Sweeps the targets at an instant, if the registration is the elected one. -/
def sweep {σ : Type} (targets : List (Target σ)) (view : Cluster.View)
    (registration : Cluster.Registration) (ttlDays : Nat) (now : Instant) (state : σ)
    : Swept σ :=
  let endMillis := retentionEnd now ttlDays
  if view.isElected registration then
    let (answers, state) := Target.callAll 0 endMillis targets state
    ⟨answers.foldl SweepReport.add ⟨true, endMillis, 0, 0, []⟩,
      .level .retentionElectionState 1 :: answers.flatMap measureAnswer, state⟩
  else ⟨⟨false, endMillis, 0, 0, []⟩, [.level .retentionElectionState 0], state⟩

end Telemetry.Storage
