import Telemetry.Module.DependencyOrder
import Telemetry.Module.Registry

/-!
Bringing up modules. All are prepared, then all are started, then all are told that everything
runs, each time in dependency order; the first hook that fails ends the start-up.
-/

namespace Telemetry.Module

/-- How far a module has come. -/
inductive ModuleState where
  | unregistered | prepared | started | ready
  deriving DecidableEq

namespace ModuleState

def name : ModuleState → String
  | unregistered => "unregistered"
  | prepared => "prepared"
  | started => "started"
  | ready => "ready"

end ModuleState

/-- A module that has been prepared. -/
structure LoadedModule (S : Type) where
  name : String
  provider : String
  state : ModuleState
  services : Registry S

/-- The modules prepared so far, in order. -/
structure Manager (S : Type) where
  modules : List (LoadedModule S) := []

namespace Manager

variable {S : Type}

def find? (manager : Manager S) (module : String) : Option (LoadedModule S) :=
  manager.modules.find? (·.name = module)

/-- The prepared module of a name, or the error that it provides nothing. -/
def find (manager : Manager S) (module : String) : Except Error (LoadedModule S) :=
  match manager.find? module with
  | some loaded => .ok loaded
  | none => .error (.serviceNotProvided module "any service")

def service (manager : Manager S) (module interface : String) : Except Error S :=
  match manager.find? module with
  | some loaded => loaded.services.get interface
  | none => .error (.serviceNotProvided module interface)

def state (manager : Manager S) (module : String) : ModuleState :=
  match manager.find? module with
  | some loaded => loaded.state
  | none => .unregistered

/-- The names of the prepared modules in order. -/
def names (manager : Manager S) : List String :=
  manager.modules.map (·.name)

def add (manager : Manager S) (loaded : LoadedModule S) : Manager S :=
  ⟨manager.modules ++ [loaded]⟩

def setState (manager : Manager S) (module : String) (state : ModuleState) : Manager S :=
  ⟨manager.modules.map fun loaded =>
    if loaded.name = module then { loaded with state } else loaded⟩

end Manager

/-- A provider of a module with the hooks that bring it up. Hooks act on a state that all
providers share, and services are values of one type.
-/
structure Provider (σ S : Type) extends Spec where
  prepare : Manager S → Registry S → σ → Except Error (Registry S) × σ
  start : Manager S → σ → Except Error Unit × σ
  notify : Manager S → σ → Except Error Unit × σ

namespace Provider

variable {σ S : Type}

/-- Prepares a module and adds it to the manager. -/
def prepareStep (provider : Provider σ S) (manager : Manager S) (state : σ)
    : Except Error (Manager S) × σ :=
  let (result, state) := provider.prepare manager ⟨provider.module, ∅⟩ state
  (result.map fun services =>
    manager.add ⟨provider.module, provider.provider, .prepared, services⟩, state)

def startStep (provider : Provider σ S) (manager : Manager S) (state : σ)
    : Except Error (Manager S) × σ :=
  let (result, state) := provider.start manager state
  (result.map fun _ => manager.setState provider.module .started, state)

/-- Tells a module that everything runs. -/
def notifyStep (provider : Provider σ S) (manager : Manager S) (state : σ)
    : Except Error (Manager S) × σ :=
  let (result, state) := provider.notify manager state
  (result.map fun _ => manager.setState provider.module .ready, state)

/-- Takes a step with each provider in order, up to the first that fails. -/
def forEach (step : Provider σ S → Manager S → σ → Except Error (Manager S) × σ)
    : List (Provider σ S) → Manager S → σ → Except Error (Manager S) × σ
  | [], manager, state => (.ok manager, state)
  | provider :: rest, manager, state =>
      match step provider manager state with
      | (.ok manager, state) => forEach step rest manager state
      | (.error error, state) => (.error error, state)

/-- Brings up modules that are in dependency order. -/
def runPhases (providers : List (Provider σ S)) (state : σ) : Except Error (Manager S) × σ :=
  match forEach prepareStep providers {} state with
  | (.error error, state) => (.error error, state)
  | (.ok manager, state) =>
      match forEach startStep providers manager state with
      | (.error error, state) => (.error error, state)
      | (.ok manager, state) => forEach notifyStep providers manager state

end Provider

/-- The modules that run, with their providers in order. -/
structure Running (σ S : Type) where
  manager : Manager S
  providers : List (Provider σ S)

/-- Brings up the modules of a list of providers. -/
def bootstrap {σ S : Type} (providers : List (Provider σ S)) (state : σ)
    : Except Error (Running σ S) × σ :=
  match dependencyOrder Provider.toSpec providers with
  | .error error => (.error error, state)
  | .ok ordered =>
      let (result, state) := Provider.runPhases ordered state
      (result.map (⟨·, ordered⟩), state)

end Telemetry.Module
