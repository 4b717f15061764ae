import Telemetry.Error

/-!
The order in which modules are brought up. Of the modules whose requirements are all placed, the
one that stands first in the input comes next; if there is none, the modules left over require
each other in a cycle, and the error shows one.
-/

namespace Telemetry.Module

/-- A module, the provider of it, and the modules it requires. -/
structure Spec where
  module : String
  provider : String
  requires : List String
  deriving DecidableEq

namespace Spec

/-- Whether every requirement of a module is placed. -/
def isReady (placed : List String) (spec : Spec) : Bool :=
  spec.requires.all (placed.contains ·)

/-- The first requirement of a module that is not placed. -/
def pending? (placed : List String) (spec : Spec) : Option String :=
  spec.requires.find? (!placed.contains ·)

end Spec

/-- Refuses a second provider of a module. -/
def checkDistinct (seen : List Spec) : List Spec → Except Error Unit
  | [] => .ok ()
  | spec :: rest =>
      match seen.find? (·.module = spec.module) with
      | some first =>
          .error (.configurationConflict (.twoProviders spec.module first.provider spec.provider))
      | none => checkDistinct (seen ++ [spec]) rest

/-- Refuses a requirement that no provider meets. -/
def checkRequirements (specs : List Spec) : Except Error Unit :=
  specs.forM fun spec => spec.requires.forM fun required =>
    if specs.any (·.module = required) then .ok ()
    else .error (.missingDependency spec.module required)

/-- Follows first pending requirements from a module until one is met again. The path lists the
modules on the way, and the modules off the path are still unvisited.
-/
def closeCycle (placed : List String) (unvisited : List Spec) (path : List String) (spec : Spec)
    : List String :=
  match spec.pending? placed with
  | none => path
  | some next =>
      match path.idxOf? next with
      | some position => path.drop position ++ [next]
      | none =>
          match _h : unvisited.find? (·.module = next) with
          | none => path ++ [next]
          | some found =>
              closeCycle placed (unvisited.eraseP (·.module = next)) (path ++ [next]) found
termination_by unvisited.length
decreasing_by
  have := List.length_eraseP_of_mem (List.mem_of_find?_eq_some _h) (List.find?_some _h)
  have := List.length_pos_of_mem (List.mem_of_find?_eq_some _h)
  omega

/-- A cycle among modules of which none is ready. -/
def findCycle (placed : List String) : List Spec → List String
  | [] => []
  | first :: rest => closeCycle placed rest [first.module] first

variable {P : Type}

/-- Places providers one after the other, always the first that is ready. -/
def arrange (spec : P → Spec) (placed : List String) (remaining : List P)
    : Except Error (List P) :=
  match _h : remaining.find? fun provider => (spec provider).isReady placed with
  | some next => do
      let later ← arrange spec ((spec next).module :: placed)
        (remaining.eraseP fun provider => (spec provider).isReady placed)
      pure (next :: later)
  | none =>
      if remaining.isEmpty then .ok []
      else .error (.dependencyCycle (findCycle placed (remaining.map spec)))
termination_by remaining.length
decreasing_by
  have := List.length_eraseP_of_mem (List.mem_of_find?_eq_some _h) (List.find?_some _h)
  have := List.length_pos_of_mem (List.mem_of_find?_eq_some _h)
  omega

/-- The providers in the order in which they are brought up. -/
def dependencyOrder (spec : P → Spec) (providers : List P) : Except Error (List P) := do
  checkDistinct [] (providers.map spec)
  checkRequirements (providers.map spec)
  arrange spec [] providers

end Telemetry.Module
