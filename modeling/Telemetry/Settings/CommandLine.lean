/-!
The command line of the collector. An option stays open until the next option or the end closes
it; only then its values are looked at, so an unknown option is noticed before a missing value.
-/

namespace Telemetry.Settings

inductive OptionName where
  | configFile | tableNamespace | prometheusExporter | databasePath | replay
  deriving DecidableEq

namespace OptionName

def all : List OptionName :=
  [configFile, tableNamespace, prometheusExporter, databasePath, replay]

def long : OptionName → String
  | configFile => "config-file"
  | tableNamespace => "namespace"
  | prometheusExporter => "prom-exporter"
  | databasePath => "redb-path"
  | replay => "replay"

/-- Whether the value is the path of a file, which cannot be empty. -/
def isPath : OptionName → Bool
  | configFile | databasePath | replay => true
  | tableNamespace | prometheusExporter => false

end OptionName

/-- Why a command line is not carried out. -/
inductive CommandLineError where
  | missingRequired | unknownArgument | invalidValue | repeated | unneededValue | help
  deriving DecidableEq

namespace CommandLineError

def name : CommandLineError → String
  | missingRequired => "MissingRequiredArgument"
  | unknownArgument => "UnknownArgument"
  | invalidValue => "InvalidValue"
  | repeated => "ArgumentConflict"
  | unneededValue => "TooManyValues"
  | help => "DisplayHelp"

end CommandLineError

structure CommandLine where
  configFile : String
  tableNamespace : Option String
  prometheusExporter : Option String
  databasePath : Option String
  replay : Option String
  deriving DecidableEq

namespace CommandLine

/-- The options closed so far, and the one that is open with its value if it has come. -/
structure Progress where
  closed : List (OptionName × String) := []
  pending : Option (OptionName × Option String) := none

/-- Closes the open option. -/
def Progress.close (progress : Progress) : Except CommandLineError Progress :=
  match progress.pending with
  | none => .ok progress
  | some (_, none) => .error .invalidValue
  | some (name, some value) =>
      if progress.closed.any (·.1 = name) then .error .repeated
      else if name.isPath && value.isEmpty then .error .invalidValue
      else .ok ⟨progress.closed ++ [(name, value)], none⟩

/-- Opens an option. A value that is attached to it closes it at once. -/
def Progress.openOption (progress : Progress) (name : OptionName) (attached : Option String)
    : Except CommandLineError Progress := do
  let progress ← progress.close
  let opened : Progress := { progress with pending := some (name, attached) }
  if attached.isSome then opened.close else pure opened

/-- Asks for help, which the error stands for. -/
def Progress.askHelp (progress : Progress) : Except CommandLineError Progress := do
  let _ ← progress.close
  throw .help

/-- A long option, without its two dashes. -/
def Progress.takeLong (progress : Progress) (text : List Char)
    : Except CommandLineError Progress :=
  let name := String.ofList (text.takeWhile (· ≠ '='))
  let attached := match text.dropWhile (· ≠ '=') with
    | [] => none
    | _ :: value => some (String.ofList value)
  match OptionName.all.find? (·.long = name) with
  | some option => progress.openOption option attached
  | none =>
      if name = "help" then
        if attached.isSome then .error .unneededValue else progress.askHelp
      else .error .unknownArgument

/-- A group of short options, without its dash. -/
def Progress.takeShort (progress : Progress) (text : List Char)
    : Except CommandLineError Progress :=
  match text with
  | 'c' :: [] => progress.openOption .configFile none
  | 'c' :: '=' :: value => progress.openOption .configFile (some (String.ofList value))
  | 'c' :: value => progress.openOption .configFile (some (String.ofList value))
  | 'h' :: _ => progress.askHelp
  | _ => .error .unknownArgument

/-- A value, which must follow an open option that has none yet. -/
def Progress.takeValue (progress : Progress) (text : String)
    : Except CommandLineError Progress :=
  match progress.pending with
  | some (name, none) => .ok { progress with pending := some (name, some text) }
  | _ => .error .unknownArgument

/-- Goes through the arguments. After a double dash no argument is an option or a value of one. -/
def scan (progress : Progress) : List String → Except CommandLineError Progress
  | [] => progress.close
  | argument :: rest => do
      match argument.toList with
      | ['-', '-'] => if rest.isEmpty then progress.close else throw .unknownArgument
      | '-' :: '-' :: text => scan (← progress.takeLong text) rest
      | '-' :: c :: text => scan (← progress.takeShort (c :: text)) rest
      | _ => scan (← progress.takeValue argument) rest

def parse (arguments : List String) : Except CommandLineError CommandLine := do
  let progress ← scan {} arguments
  let value (name : OptionName) : Option String :=
    (progress.closed.find? (·.1 = name)).map (·.2)
  match value .configFile with
  | none => throw .missingRequired
  | some configFile =>
      return {
        configFile
        tableNamespace := value .tableNamespace
        prometheusExporter := value .prometheusExporter
        databasePath := value .databasePath
        replay := value .replay }

end CommandLine

end Telemetry.Settings
