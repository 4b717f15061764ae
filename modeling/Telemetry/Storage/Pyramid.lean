import Telemetry.Error
import Telemetry.Granularity

/-!
Services of one interface at several granularities.
-/

namespace Telemetry.Storage

/-- A service for each of some granularities. -/
structure Pyramid (α : Type) where
  level? : Granularity → Option α := fun _ => none

namespace Pyramid

variable {α : Type}

/-- The pyramid with a service at a granularity, in place of one that stood there. -/
def set (pyramid : Pyramid α) (granularity : Granularity) (service : α) : Pyramid α :=
  ⟨fun other => if other = granularity then some service else pyramid.level? other⟩

/-- The pyramid of a list of levels, the last of equal granularities winning. -/
def ofList (levels : List (Granularity × α)) : Pyramid α :=
  levels.foldl (fun acc level => acc.set level.1 level.2) {}

/-- The granularities that have a service, finest first. -/
def granularities (pyramid : Pyramid α) : List Granularity :=
  Granularity.all.filter fun granularity => (pyramid.level? granularity).isSome

/-- The levels, finest first. -/
def levels (pyramid : Pyramid α) : List (Granularity × α) :=
  Granularity.all.filterMap fun granularity =>
    (pyramid.level? granularity).map (granularity, ·)

/-- The service at a granularity, which must be there. The interface is the name of what the
levels provide.
-/
def level (pyramid : Pyramid α) (interface : String) (granularity : Granularity)
    : Except Error α :=
  match pyramid.level? granularity with
  | some service => .ok service
  | none => .error (.serviceNotProvided "storage" (granularity.name ++ " " ++ interface))

def describe (pyramid : Pyramid α) : String :=
  "TimePyramid \x7b levels: " ++ Text.bracketed (pyramid.granularities.map (·.title)) ++ " \x7d"

end Pyramid

end Telemetry.Storage
