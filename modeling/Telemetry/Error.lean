import Telemetry.Column

/-!
What can go wrong, by cause. The wording of a cause is in `message`, and nowhere else.
-/

namespace Telemetry

/-- A whole number of milliseconds. -/
abbrev Duration := Nat

/-- A duration in its largest unit, seconds with the fraction they need. -/
def Duration.text (duration : Duration) : String :=
  if duration = 0 then "0ns"
  else if duration < 1000 then toString duration ++ "ms"
  else
    let digits := Nat.toDigits 10 (1000 + duration % 1000) |>.drop 1
    let fraction := (digits.reverse.dropWhile (· == '0')).reverse
    toString (duration / 1000) ++ (if fraction.isEmpty then "" else "." ++ String.ofList fraction)
      ++ "s"

/-- Why the metadata store refuses a call or a watch reports a gap. -/
inductive MetadataError where
  | lagged (missed : Nat)
  | refused (call : String)
  | channelClosed
  | tooFewSegments (path : String)
  | noKey (path : String)
  deriving DecidableEq

namespace MetadataError

def kind : MetadataError → String
  | lagged _ => "WatchError"
  | refused _ => "StorageError"
  | channelClosed => "WatchChannelClosed"
  | tooFewSegments _ | noKey _ => "InvalidArguments"

def message : MetadataError → String
  | lagged missed =>
      "Watch stream error: watch lagged by " ++ toString missed ++ " events, consumer should resync"
  | refused call => "Storage backend error: " ++ call ++ " refused"
  | channelClosed => "Watch channel closed"
  | tooFewSegments path => "Invalid arguments: Path must have at least 3 segments: " ++ path
  | noKey path => "Invalid arguments: Path must have a key component: " ++ path

end MetadataError

/-- Settings that contradict each other. -/
inductive Conflict where
  | namespaceFixed (current refused : String)
  | serviceTaken (module service : String)
  | twoProviders (module first second : String)
  deriving DecidableEq

/-- Records or values that do not fit a schema. -/
inductive Mismatch where
  | columnType (entity column : String) (expected found : ColumnType)
  | unknownColumn (entity column : String)
  | hiddenColumn (entity column : String)
  | notNumeric (rule : MergeRule) (type : ColumnType) (entity column : String)
  | notAnObject (entity : String) (value : Value)

/-- Operations that a rule of the collector forbids. -/
inductive Violation where
  | differentIds (entity first second : String)
  | diverged (entity column id : String) (earlier later : ColumnValue)
  | notInsertable (table id : String)
  | startedTwice
  deriving DecidableEq

/-- Why a table store does not answer. -/
inductive Outage where
  | deadlinePassed
  | flushTimedOut (timeout : Duration)
  | unreachable (detail : String)
  deriving DecidableEq

/-- What can go wrong in a collector. -/
inductive Error where
  | serviceNotProvided (module service : String)
  | missingDependency (module required : String)
  | dependencyCycle (path : List String)
  | configurationConflict (cause : Conflict)
  | schemaMismatch (cause : Mismatch)
  | invariantViolation (cause : Violation)
  | backendUnavailable (cause : Outage)
  | metadata (cause : MetadataError)
  | undecodable

def Conflict.message : Conflict → String
  | .namespaceFixed current refused =>
      "table namespace already set to " ++ Text.quote current ++ ", refusing " ++ Text.quote refused
  | .serviceTaken module service =>
      "module " ++ module ++ " already provides an implementation of " ++ service
  | .twoProviders module first second =>
      "module " ++ module ++ " has two active providers: " ++ first ++ " and " ++ second

def Mismatch.message : Mismatch → String
  | .columnType entity column expected found =>
      "column " ++ entity ++ "." ++ column ++ " expects " ++ expected.name ++ " but got "
        ++ found.name
  | .unknownColumn entity column => "entity " ++ entity ++ " has no column " ++ column
  | .hiddenColumn entity column => "entity " ++ entity ++ " does not expose column " ++ column
  | .notNumeric rule type entity column =>
      rule.title ++ " merge is not defined for " ++ type.name ++ " column " ++ entity ++ "."
        ++ column
  | .notAnObject entity value => entity ++ " encoded to a non-object value: " ++ value.render

def Violation.message : Violation → String
  | .differentIds entity first second =>
      "cannot merge " ++ entity ++ " records with different ids: " ++ first ++ " and " ++ second
  | .diverged entity column id earlier later =>
      "non-merge column " ++ entity ++ "." ++ column ++ " diverged for id " ++ id ++ ": "
        ++ earlier.describe ++ " vs " ++ later.describe
  | .notInsertable table id =>
      table ++ " rows are created by registration, refusing insert of " ++ id
  | .startedTwice => "storage module started twice"

def Outage.message : Outage → String
  | .deadlinePassed => "redb batch deadline passed, transaction rolled back"
  | .flushTimedOut timeout => "batch flush timed out after " ++ timeout.text
  | .unreachable detail => detail

def Error.kind : Error → String
  | .serviceNotProvided _ _ => "ServiceNotProvided"
  | .missingDependency _ _ => "MissingDependency"
  | .dependencyCycle _ => "DependencyCycle"
  | .configurationConflict _ => "ConfigurationConflict"
  | .schemaMismatch _ => "SchemaMismatch"
  | .invariantViolation _ => "InvariantViolation"
  | .backendUnavailable _ => "BackendUnavailable"
  | .metadata _ => "Metadata"
  | .undecodable => "Serialization"

def Error.message : Error → String
  | .serviceNotProvided module service =>
      "Module " ++ module ++ " does not provide service " ++ service
  | .missingDependency module required =>
      "Module " ++ module ++ " requires " ++ required ++ ", which is not configured"
  | .dependencyCycle path => "Module dependency cycle detected: " ++ " -> ".intercalate path
  | .configurationConflict cause => "Configuration conflict: " ++ cause.message
  | .schemaMismatch cause => "Schema mismatch: " ++ cause.message
  | .invariantViolation cause => "Invariant violation: " ++ cause.message
  | .backendUnavailable cause => "Storage backend unavailable: " ++ cause.message
  | .metadata cause => "Metadata store error: " ++ cause.message
  | .undecodable => "Serialization error"

end Telemetry
