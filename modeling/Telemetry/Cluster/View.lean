import Telemetry.Cluster.Registration

/-!
The view that a listener has of the members of a module. A view is sorted and lists every member
once, under its least registration; the first member is the elected one.
-/

namespace Telemetry.Cluster

/-- Keeps the first of each run of registrations of one member. -/
def dedup : List Registration → List Registration
  | [] => []
  | first :: rest => first :: dedup (rest.dropWhile first.sameMember)
termination_by registrations => registrations.length
decreasing_by
  exact Nat.lt_succ_of_le (List.dropWhile_sublist _).length_le

/-- The registrations of a list in order, one for each member. -/
def canonical (registrations : List Registration) : List Registration :=
  dedup (inOrder registrations)

/-- What a listener knows of the members of its module. -/
structure View where
  module : String
  peers : List Registration := []
  deriving DecidableEq

namespace View

/-- The view after a change of membership, which depends on the new members alone. -/
def change (view : View) (registrations : List Registration) : View :=
  { view with peers := canonical registrations }

def elected? (view : View) : Option Registration :=
  view.peers.head?

/-- Whether a registration announces the elected member. -/
def isElected (view : View) (registration : Registration) : Bool :=
  view.elected?.any (·.sameMember registration)

end View

end Telemetry.Cluster
