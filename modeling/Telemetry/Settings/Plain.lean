import Telemetry.Settings.CommandLine
import Telemetry.Settings.Configuration

/-!
The plain forms in which command lines and configurations are shown.
-/

namespace Telemetry

/-- A text that may be missing, in plain form. -/
def Value.ofText? : Option String → Value
  | some chars => .text chars
  | none => .null

namespace Settings

def CommandLine.encode (line : CommandLine) : Value :=
  .object [("config_file", .text line.configFile),
    ("namespace", .ofText? line.tableNamespace),
    ("prom_exporter", .ofText? line.prometheusExporter),
    ("redb_path", .ofText? line.databasePath), ("replay", .ofText? line.replay)]

def Configuration.encode (configuration : Configuration) : Value :=
  let storage := configuration.storage
  .object [("cluster_name", .text configuration.clusterName),
    ("namespace", .text configuration.tableNamespace),
    ("registration_ttl_secs", .int configuration.registrationTtlSecs),
    ("prometheus", .ofText? (configuration.prometheus.map (·.text))),
    ("provider", .text storage.backend.name), ("path", .ofText? storage.databasePath),
    ("ttl_days", .int storage.ttlDays),
    ("ttl_check_interval_secs", .int storage.ttlCheckIntervalSecs),
    ("flush_interval_secs", .int storage.flushIntervalSecs),
    ("flush_timeout_secs", .int storage.flushTimeoutSecs),
    ("strict_merge", .bool storage.strictMerge)]

end Settings

end Telemetry
