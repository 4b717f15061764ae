import Telemetry.Error
import Telemetry.KeyMap

/-!
The services that one module provides, one for each interface. An interface is known by its name.
-/

namespace Telemetry.Module

/-- The services of a module by the names of their interfaces. -/
structure Registry (S : Type) where
  module : String
  services : KeyMap S := ∅

namespace Registry

variable {S : Type}

/-- Provides a service for an interface that has none yet. -/
def register (registry : Registry S) (interface : String) (service : S)
    : Except Error (Registry S) :=
  if registry.services.contains interface then
    .error (.configurationConflict (.serviceTaken registry.module interface))
  else .ok { registry with services := registry.services.insert interface service }

def get (registry : Registry S) (interface : String) : Except Error S :=
  match registry.services.get? interface with
  | some service => .ok service
  | none => .error (.serviceNotProvided registry.module interface)

/-- Provides services in order, up to the first interface that has one already. -/
def registerAll (registry : Registry S) (services : List (String × S))
    : Except Error (Registry S) :=
  services.foldlM (fun acc service => acc.register service.1 service.2) registry

/-- A registry as it stands in messages, its interfaces in order. -/
def describe (registry : Registry S) : String :=
  "ServiceRegistry \x7b module: " ++ Text.quote registry.module ++ ", services: "
    ++ Text.bracketed (registry.services.keys.map Text.quote) ++ " \x7d"

end Registry

end Telemetry.Module
