import Telemetry.Collector.Deployment
import Telemetry.Settings.Overrides
import Telemetry.Storage.Plain

/-!
The command line of the collector. It brings up one collector, replays a file if it is told to,
and flushes what is staged when its standard input ends.
-/

namespace Telemetry

/-- The name of the collector that a process runs. -/
def collectorName : String := "collector"

/-- Reads and checks the configuration that a command line asks for. -/
def configure (commandLine : Settings.CommandLine) (content : String)
    : Except String Settings.Configuration :=
  match (Document.parse? content).bind Settings.Written.decode? with
  | none => .error "the configuration cannot be read"
  | some written => (written.check.bind (·.override commandLine)).mapError (·.message)

/-- The result of an action of a collector, whose error ends the program. -/
def orFail {α : Type} (result : Except Error α) : ExceptT String IO α :=
  ExceptT.mk (pure (result.mapError (·.message)))

def serve (configuration : Settings.Configuration) (replay : Option String)
    : ExceptT String IO Unit := do
  let instanceId := toString (← IO.rand 0 (2 ^ 64 - 1))
  let (started, deployment) := Collector.Deployment.start {} collectorName true
    (Collector.providers configuration instanceId)
  orFail started
  let mut deployment := deployment
  if let some path := replay then
    let content ← IO.FS.readBinFile path
    let (count, replayed) := deployment.replay collectorName content.data.toList
    deployment := replayed
    if count.isNone then throw "the replay file is no text"
  let _ ← (← IO.getStdin).readToEnd
  if let some collector := deployment.collectors.get? collectorName then
    let (flushed, _) := deployment.cycle collectorName collector
    let outcome ← orFail flushed
    IO.println outcome.sorted.encode.render

end Telemetry

def main (arguments : List String) : IO UInt32 := do
  match Telemetry.Settings.CommandLine.parse arguments with
  | .error error =>
      IO.eprintln error.name
      return if error = .help then 0 else 2
  | .ok commandLine =>
      let run : ExceptT String IO Unit := do
        let content ← IO.FS.readFile commandLine.configFile
        let configuration ← ExceptT.mk (pure (Telemetry.configure commandLine content))
        Telemetry.serve configuration commandLine.replay
      match ← ExceptT.run run with
      | .ok _ => return 0
      | .error message =>
          IO.eprintln message
          return 1
