import CoverageRegistry.Codec.Run
import CoverageRegistry.Command.Failure
import CoverageRegistry.Command.Invocation
import CoverageRegistry.Sensor.Analyzer

/-!
# Collecting the reports of a module

A collection loads the settings of one module, runs the sensors of one language on it, and finishes
the run with the report sets of that language.
-/
namespace CoverageRegistry.Command

/-- What the program finds around it. -/
structure Host where
  /-- The files, seen from the current directory. -/
  files : FileSystem
  currentDir : Path
  now : Timestamp
  /-- The milliseconds that the clock counts for whatever is timed. -/
  millis : Nat
  /-- A fresh name for a run. -/
  runId : String

/-- What sensors and runs see of the host. -/
def Host.surroundings (host : Host) : Surroundings :=
  ⟨host.files.isDirectory, host.now, host.millis⟩

namespace Collection

/-- The base directory: the given one, seen from the current directory. -/
def baseDir (collection : Collection) (currentDir : Path) : Path :=
  match collection.base with
  | some base => currentDir.join base
  | none => currentDir

/-- The policy on scopes without reports. -/
def policy (collection : Collection) : EmptyReportPolicy :=
  if collection.strict then .strict else .lenient

/-- The module that is collected. -/
def toModule (collection : Collection) (currentDir : Path) (settings : Settings) : Module :=
  .declaring collection.module (collection.baseDir currentDir) settings [collection.language]

/-- Runs the sensors of the language on the module and finishes the run. -/
def run (collection : Collection) (host : Host) (table : LanguageTable) (settings : Settings)
    (sensors : List Sensor) : Except Failure RunReport × List Event :=
  let executed := (AnalysisRun.start host.runId table collection.policy).execute host.surroundings
    [collection.toModule host.currentDir settings] sensors
  let finished := executed.run.finish host.surroundings [collection.language]
  let log := (executed.log ++ finished.log).map LogEntry.event
  (finished.result.mapError .reportSets,
    .collecting host.runId collection.language :: log ++
      AnalysisRun.discard finished.collectors)

/-- Loads the settings, finds the sensors, and runs them. -/
def report (collection : Collection) (host : Host) (table : LanguageTable) :
    Except Failure RunReport × List Event :=
  let loaded := Settings.load host.files collection.settings
  match loaded.1 with
  | .error error => (.error (.settingsFile collection.settings error), loaded.2)
  | .ok settings =>
    match Sensor.forLanguage table collection.language with
    | .error error => (.error (.unknownLanguage collection.language error), loaded.2)
    | .ok sensors =>
      let done := collection.run host table settings sensors
      (done.1, loaded.2 ++ done.2)

/-- What a run report answers with: a failed sensor is a failure of the program. -/
def answer (report : RunReport) : Except Failure Json :=
  if report.success then
    match report.toJson? with
    | some value => .ok value
    | none => .error .unwritable
  else .error (.sensors (report.failedSensors.map fun sensor => (sensor.sensor, sensor.module)))

end Collection

end CoverageRegistry.Command
