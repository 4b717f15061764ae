import Telemetry.Cluster.Naming
import Telemetry.Cluster.View

/-!
The task that keeps the view of one listener up to date. It waits for a change below the path of
the module, reads the members anew and publishes them to the listener, one step at a time; a gap in
the changes is treated like a change.
-/

namespace Telemetry.Cluster

/-- What a listening task does next. -/
inductive Phase where
  /-- It takes the next change from its stream. -/
  | waiting
  /-- It reads the members of the module. -/
  | reading
  /-- It hands the members that it read to the listener. -/
  | publishing (peers : List Registration)
  deriving DecidableEq

namespace Phase

/-- The number of steps until the task waits again. -/
def remaining : Phase → Nat
  | waiting => 0
  | publishing _ => 1
  | reading => 2

end Phase

structure Listening where
  listener : String
  service : String
  module : String
  stream : Metadata.Stream
  phase : Phase
  deriving DecidableEq

namespace Listening

/-- One step of a task and what becomes of the view of its listener. Members that cannot be read
leave the view as it is; a task that waits for a change takes no step.
-/
def step? (service : NamingService) (store : Metadata.Store) (task : Listening) (view : View)
    : Option (Listening × View) :=
  match task.phase with
  | .waiting =>
      (store.read? task.stream).map fun read =>
        ({ task with stream := read.2, phase := .reading }, view)
  | .reading =>
      match service.peers task.module store with
      | .ok peers => some ({ task with phase := .publishing peers }, view)
      | .error _ => some ({ task with phase := .waiting }, view)
  | .publishing peers => some ({ task with phase := .waiting }, view.change peers)

/-- A bound on the number of steps until a task waits and has nothing to read. -/
def work (store : Metadata.Store) (task : Listening) : Nat :=
  3 * store.unread task.stream + task.phase.remaining

theorem work_lt_of_step? {service : NamingService} {store : Metadata.Store}
    {task next : Listening} {view changed : View}
    (h : step? service store task view = some (next, changed))
    : work store next < work store task := by
  unfold step? at h
  split at h
  · next phase =>
    obtain ⟨_, read, eq⟩ := Option.map_eq_some_iff.mp h
    cases eq
    have := Metadata.Store.unread_lt_of_read? read
    simp only [work, Phase.remaining, phase]
    omega
  · next phase =>
    split at h <;>
    · cases h
      simp [work, Phase.remaining, phase]
  · next phase =>
    cases h
    simp [work, Phase.remaining, phase]

/-- The task and the view of its listener when the task waits and has nothing to read. -/
def settle (service : NamingService) (store : Metadata.Store) (task : Listening) (view : View)
    : Listening × View :=
  match _h : step? service store task view with
  | some (next, changed) => settle service store next changed
  | none => (task, view)
termination_by work store task
decreasing_by exact work_lt_of_step? _h

end Listening

end Telemetry.Cluster
