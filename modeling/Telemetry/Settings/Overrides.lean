import Telemetry.Settings.CommandLine
import Telemetry.Settings.Configuration

/-!
Options of the command line that take precedence over the configuration.
-/

namespace Telemetry.Settings

namespace Configuration

/-- The address that a command line gives for the exporter, or the configured one. -/
def exporterAddress (configuration : Configuration)
    : Option String → Except ConfigurationError (Option SocketAddress)
  | none => .ok configuration.prometheus
  | some text =>
      match SocketAddress.parse? text with
      | some address => .ok (some address)
      | none => .error (.badExporterAddress text)

/-- The storage settings with the database that a command line names, if it names one. -/
def storageWith (configuration : Configuration) : Option String → StorageSettings
  | none => configuration.storage
  | some path =>
      { configuration.storage with backend := .database, databasePath := some path }

/-- The configuration with the options of a command line in place of its own. -/
def override (configuration : Configuration) (commandLine : CommandLine)
    : Except ConfigurationError Configuration := do
  let prometheus ← configuration.exporterAddress commandLine.prometheusExporter
  return { configuration with
    tableNamespace := commandLine.tableNamespace.getD configuration.tableNamespace
    prometheus
    storage := configuration.storageWith commandLine.databasePath }

end Configuration

end Telemetry.Settings
