import Telemetry.Agenda
import Telemetry.Cluster.Listening

/-!
A metadata store with the naming services and the listeners that share it. Changes of the store
reach the listeners when the listening tasks run, which `settle` lets them do until all of them
wait.
-/

namespace Telemetry.Cluster

/-- A task that recurs in a network. -/
inductive Chore where
  | renew (service path : String)
  /-- Removes what has expired, on behalf of an owner. -/
  | expire (owner : String)
  deriving DecidableEq

/-- Naming services and listeners by name, over one metadata store. -/
structure Network where
  store : Metadata.Store := {}
  /-- The reading of the clock by which values expire. -/
  clock : Metadata.Time := 0
  services : KeyMap NamingService := ∅
  listeners : KeyMap View := ∅
  tasks : List Listening := []
  agenda : Agenda Chore := {}

namespace Network

def service (network : Network) (name : String) : Except Error NamingService :=
  match network.services.get? name with
  | some service => .ok service
  | none => .error (.serviceNotProvided "cluster" name)

/-- The network without a naming service. Its registrations stay, but nothing renews them, and its
listeners keep the views that they have.
-/
def dropService (network : Network) (name : String) : Network :=
  { network with
    services := network.services.erase name
    tasks := network.tasks.filter (·.service ≠ name)
    agenda := network.agenda.cancel fun
      | .renew service _ => service = name
      | .expire _ => false }

/-- The network with a naming service, in place of one of that name. -/
def addService (network : Network) (name : String) (service : NamingService) : Network :=
  let network := network.dropService name
  { network with services := network.services.insert name service }

def dropListener (network : Network) (name : String) : Network :=
  { network with
    listeners := network.listeners.erase name
    tasks := network.tasks.filter (·.listener ≠ name) }

/-- The network with a listener to a module, in place of one of that name. -/
def addListener (network : Network) (name module : String) : Network :=
  let network := network.dropListener name
  { network with listeners := network.listeners.insert name { module } }

def stopRenewal (agenda : Agenda Chore) (name path : String) : Agenda Chore :=
  agenda.cancel (· = .renew name path)

/-- Registers through a naming service, which renews the registration from now on. -/
def register (network : Network) (name : String) (registration : Registration)
    : Except Error Network := do
  let service ← network.service name
  let (service, store) ← service.register network.clock registration network.store
  let chore := Chore.renew name registration.path
  return { network with
    store
    services := network.services.insert name service
    agenda := (stopRenewal network.agenda name registration.path).arm chore service.renewalPeriod
      .restarted }

/-- Deregisters through a naming service. The renewals stop even if the removal fails. -/
def deregister (network : Network) (name : String) (registration : Registration)
    : Except Error Unit × Network :=
  match network.service name with
  | .error error => (.error error, network)
  | .ok service =>
      let released := { network with
        services := network.services.insert name (service.release registration)
        agenda := stopRenewal network.agenda name registration.path }
      match service.remove registration network.store with
      | .ok store => (.ok (), { released with store })
      | .error error => (.error error, released)

/-- The members of a module as a naming service reads them. -/
def peers (network : Network) (name module : String) : Except Error (List Registration) := do
  (← network.service name).peers module network.store

/-- Attaches a listener to a naming service. It gets the members of its module at once, and again
after every change from then on.
-/
def attach (network : Network) (name listener : String) : Except Error Network := do
  let service ← network.service name
  match network.listeners.get? listener with
  | none => throw (.serviceNotProvided "cluster" listener)
  | some view =>
      let watched := network.store.watch (modulePath view.module)
      let (stream, store) ← service.call .watch (.ok watched)
      let peers ← service.peers view.module store
      let task : Listening := ⟨listener, name, view.module, stream, .waiting⟩
      return { network with
        store
        listeners := network.listeners.insert listener (view.change peers)
        tasks := network.tasks ++ [task] }

/-- Lets one listening task run until it waits. -/
def settleTask (network : Network) (task : Listening) : Network × Listening :=
  match network.services.get? task.service, network.listeners.get? task.listener with
  | some service, some view =>
      let (task, view) := task.settle service network.store view
      ({ network with listeners := network.listeners.insert task.listener view }, task)
  | _, _ => (network, task)

/-- Lets listening tasks run one after the other. -/
def settleTasks (network : Network) : List Listening → Network × List Listening
  | [] => (network, [])
  | task :: rest =>
      let (network, task) := network.settleTask task
      let (network, rest) := settleTasks network rest
      (network, task :: rest)

/-- Lets the listening tasks run until all of them wait. -/
def settle (network : Network) : Network :=
  let (network, tasks) := network.settleTasks network.tasks
  { network with tasks }

/-- Removes the values that have expired and counts them. -/
def expire (network : Network) : Except MetadataError (Nat × Network) := do
  let (count, store) ← network.store.expire network.clock
  return (count, { network with store })

/-- Removes expired values from time to time on behalf of an owner, and once at the start. Without
a period nothing is ever removed.
-/
def expireEvery (network : Network) (owner : String) (period : Duration) : Network :=
  if period = 0 then network
  else
    let network := { network with agenda := network.agenda.arm (.expire owner) period .aligned }
    match network.expire with
    | .ok (_, expired) => expired
    | .error _ => network

/-- Ends the removal of expired values on behalf of an owner. -/
def stopExpiring (network : Network) (owner : String) : Network :=
  { network with agenda := network.agenda.cancel (· = .expire owner) }

/-- Renews a registration. A renewal that fails is the last one. -/
def renew (network : Network) (name path : String) : Network :=
  match network.services.get? name with
  | none => network
  | some service =>
      match service.renewed.get? path with
      | none => network
      | some registration =>
          match service.store network.clock registration network.store with
          | .ok store => { network with store }
          | .error _ => { network with agenda := stopRenewal network.agenda name path }

/-- Runs a recurring task. -/
def run (network : Network) : Chore → Network
  | .renew service path => network.renew service path
  | .expire _ =>
      match network.expire with
      | .ok (_, expired) => expired
      | .error _ => network

/-- Moves the clock of the recurring tasks forward and runs those that are due. -/
def advance (network : Network) (elapsed : Duration) : Network :=
  let (chores, agenda) := network.agenda.advance elapsed
  chores.foldl run { network with agenda }

end Network

end Telemetry.Cluster
