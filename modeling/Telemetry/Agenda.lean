/-!
Tasks that recur on a clock which moves forward in jumps. A jump that carries a task past several
of its times runs it once, and a task without a period never runs.
-/

namespace Telemetry

/-- What a recurring task does about the times that a jump carried it past. -/
inductive Rhythm where
  /-- The next time is one period after the task has run. -/
  | restarted
  /-- The next time is one of those set out at the start. -/
  | aligned
  deriving DecidableEq

/-- A task that recurs, and the time in milliseconds at which it is due. -/
structure Recurring (τ : Type) where
  task : τ
  period : Nat
  rhythm : Rhythm
  due : Nat
  /-- Without a period the next time would not lie ahead. -/
  period_pos : 0 < period

namespace Recurring

variable {τ : Type}

/-- The task after it has run. -/
def rearm (recurring : Recurring τ) (now : Nat) : Recurring τ :=
  match recurring.rhythm with
  | .restarted => { recurring with due := now + recurring.period }
  | .aligned =>
      let missed := (now - recurring.due) / recurring.period
      { recurring with due := recurring.due + (missed + 1) * recurring.period }

end Recurring

/-- Recurring tasks in the order in which they were armed, and the reading of their clock. -/
structure Agenda (τ : Type) where
  now : Nat := 0
  tasks : List (Recurring τ) := []

namespace Agenda

variable {τ : Type}

/-- Arms a task that is due one period from now, if it has a period. -/
def arm (agenda : Agenda τ) (task : τ) (period : Nat) (rhythm : Rhythm) : Agenda τ :=
  if period_pos : 0 < period then
    let recurring : Recurring τ := { task, period, rhythm, due := agenda.now + period, period_pos }
    { agenda with tasks := agenda.tasks ++ [recurring] }
  else agenda

def cancel (agenda : Agenda τ) (dropped : τ → Bool) : Agenda τ :=
  { agenda with tasks := agenda.tasks.filter fun recurring => !dropped recurring.task }

/-- The tasks that are due, earliest first and in the order of arming where times are equal. -/
def due (agenda : Agenda τ) : List (Recurring τ) :=
  (agenda.tasks.filter (·.due ≤ agenda.now)).mergeSort (·.due ≤ ·.due)

/-- Moves the clock forward. Yields the tasks to run in order, and the agenda with these armed
anew behind the others.
-/
def advance (agenda : Agenda τ) (elapsed : Nat) : List τ × Agenda τ :=
  let agenda := { agenda with now := agenda.now + elapsed }
  let waiting := agenda.tasks.filter (agenda.now < ·.due)
  (agenda.due.map (·.task),
    { agenda with tasks := waiting ++ agenda.due.map (·.rearm agenda.now) })

end Agenda

end Telemetry
