import CoverageRegistry.Kind

/-!
# Events

What the registry, its sensors and its runs report while they work. An operation returns its events
as data, in the order of their emission; a run places them in spans. An event knows its level, the
part of the program that it comes from, and its fields.
-/
namespace CoverageRegistry

/-- How important an event is. -/
inductive Level where
  | error
  | warn
  | info
  | debug
  | trace
  deriving DecidableEq, Repr

namespace Level

/-- The name of a level. -/
def name : Level → String
  | error => "ERROR"
  | warn => "WARN"
  | info => "INFO"
  | debug => "DEBUG"
  | trace => "TRACE"

/-- How much a log that shows this level shows. -/
def verbosity : Level → Nat
  | error => 1
  | warn => 2
  | info => 3
  | debug => 4
  | trace => 5

end Level

/-- The value of a field of an event. -/
inductive FieldValue where
  | text (value : String)
  | count (value : Nat)
  | flag (value : Bool)
  deriving DecidableEq, Repr

/-- Something worth reporting. -/
inductive Event where
  /-- A run begins to execute so many pairs of a module and a sensor. -/
  | runStarted (runId : String) (executions : Nat)
  /-- A run is finished. -/
  | runFinished (runId : String) (millis totalPaths : Nat) (success : Bool)
  /-- A bucket took a contribution. -/
  | pathsAdded (kind : ReportKind) (scope : Option TestScope) (added duplicates : Nat)
  /-- A sealed collector refused a contribution. -/
  | contributionRejected (kind : ReportKind) (scope : Option TestScope) (error : String)
  /-- A configured entry has no normal form. -/
  | pathRejected (property error : String)
  /-- A collector was sealed. -/
  | registrySealed (totalPaths : Nat)
  /-- A collector was discarded. -/
  | registryDiscarded (totalPaths : Nat)
  /-- A report set was built. -/
  | reportSetBuilt (language : String) (scope : TestScope) (totalPaths : Nat)
  /-- A sensor finished on a module. -/
  | sensorFinished (sensor : String) (contributed millis : Nat)
  /-- A sensor does not apply to a module. -/
  | sensorSkipped (sensor reason : String)
  /-- A sensor failed on a module. -/
  | sensorFailed (sensor error : String)
  /-- A sensor stopped without an answer. -/
  | sensorAborted
  /-- A languages file was read. -/
  | loadingLanguages (path : String)
  /-- A settings file was loaded. -/
  | settingsLoaded (path : String) (properties : Nat)
  /-- An analyzer output directory does not exist. -/
  | outputDirMissing (property dir : String)
  /-- The properties sensor read a module. -/
  | propertiesCollected (module : String) (contributed : Nat)
  /-- The command line starts to collect. -/
  | collecting (runId language : String)
  deriving DecidableEq, Repr

namespace Event

/-- The level of an event. -/
def level : Event → Level
  | runStarted .. | runFinished .. | registrySealed .. | reportSetBuilt .. | sensorFinished ..
  | collecting .. => .info
  | pathsAdded .. | registryDiscarded .. | sensorSkipped .. | loadingLanguages ..
  | settingsLoaded .. | outputDirMissing .. | propertiesCollected .. => .debug
  | contributionRejected .. | pathRejected .. | sensorFailed .. => .warn
  | sensorAborted => .error

/-- The part of the program that an event comes from; log filters select by it. -/
def target : Event → String
  | loadingLanguages .. => "covreg_core::config"
  | settingsLoaded .. => "covreg_sensors::settings"
  | outputDirMissing .. => "covreg_sensors::analyzer"
  | propertiesCollected .. => "covreg_sensors::properties"
  | sensorAborted => "covreg_sensors::run"
  | collecting .. => "covreg"
  | _ => "covreg_core::obs"

/-- The fields of an event that has a name of its own. -/
private def named (event : String) (fields : List (String × FieldValue)) :
    List (String × FieldValue) :=
  ("event", .text event) :: fields

/-- The fields of an event that is a message. -/
private def said (message : String) (fields : List (String × FieldValue)) :
    List (String × FieldValue) :=
  ("message", .text message) :: fields

/-- The fields of an event. -/
def fields : Event → List (String × FieldValue)
  | runStarted runId executions =>
    named "run.started" [("run_id", .text runId), ("sensors", .count executions)]
  | runFinished runId millis totalPaths success =>
    named "run.finished" [("run_id", .text runId), ("duration_ms", .count millis),
      ("total_paths", .count totalPaths), ("success", .flag success)]
  | pathsAdded kind scope added duplicates =>
    named "registry.paths_added" [("kind", .text kind.label), ("scope", .text (scopeLabel scope)),
      ("added", .count added), ("duplicates", .count duplicates)]
  | contributionRejected kind scope error =>
    named "registry.contribution_rejected" [("kind", .text kind.label),
      ("scope", .text (scopeLabel scope)), ("error", .text error)]
  | pathRejected property error =>
    named "path.rejected" [("property", .text property), ("error", .text error)]
  | registrySealed totalPaths => named "registry.sealed" [("total_paths", .count totalPaths)]
  | registryDiscarded totalPaths =>
    named "registry.discarded" [("total_paths", .count totalPaths)]
  | reportSetBuilt language scope totalPaths =>
    named "report_set.built" [("language", .text language), ("scope", .text scope.name),
      ("total_paths", .count totalPaths)]
  | sensorFinished sensor contributed millis =>
    named "sensor.finished" [("sensor", .text sensor), ("contributed", .count contributed),
      ("duration_ms", .count millis)]
  | sensorSkipped sensor reason =>
    named "sensor.skipped" [("sensor", .text sensor), ("reason", .text reason)]
  | sensorFailed sensor error =>
    named "sensor.failed" [("sensor", .text sensor), ("error", .text error)]
  | sensorAborted => said "sensor task join error" []
  | loadingLanguages path => said "loading languages table" [("path", .text path)]
  | settingsLoaded path properties =>
    said "loaded settings" [("path", .text path), ("properties", .count properties)]
  | outputDirMissing property dir =>
    said "analyzer output directory not found, skipping"
      [("property", .text property), ("dir", .text dir)]
  | propertiesCollected module contributed =>
    said "analyzer properties collected"
      [("module", .text module), ("contributed", .count contributed)]
  | collecting runId language =>
    said "collecting report paths" [("run_id", .text runId), ("language", .text language)]

end Event

/-- An event in its spans, the outermost first. -/
structure LogEntry where
  spans : List String
  event : Event
  deriving DecidableEq, Repr

namespace LogEntry

/-- Events outside every span. -/
def plain (events : List Event) : List LogEntry :=
  events.map fun event => ⟨[], event⟩

/-- Places entries in a further span around them. -/
def within (span : String) (entries : List LogEntry) : List LogEntry :=
  entries.map fun entry => ⟨span :: entry.spans, entry.event⟩

end LogEntry

end CoverageRegistry
