import CoverageRegistry.Report.Build
import CoverageRegistry.Sensor.Basic

/-!
# Analysis runs

A run owns one collector per registered language. Executing sensors on modules takes every pair of
a module and a sensor in order: first the pairs that do not apply are skipped, then the actions of
the others run, then their endings are reported. Finishing a run seals the collectors of some
languages and builds their report sets.
-/
namespace CoverageRegistry

/-- How a sensor ended on a module. -/
inductive SensorStatus where
  | finished
  /-- The module does not have the sensor's language. -/
  | skipped
  | failed (error : String)
  deriving DecidableEq, Repr

/-- Whether a sensor failed. -/
def SensorStatus.isFailed : SensorStatus → Bool
  | failed _ => true
  | _ => false

/-- The record of a sensor on a module. -/
structure SensorReport where
  sensor : String
  module : String
  status : SensorStatus
  outcome : SensorOutcome
  /-- How many milliseconds the action took. -/
  millis : Nat
  deriving DecidableEq, Repr

/-- Everything a run produced. -/
structure RunReport where
  runId : String
  coverage : List CoverageReportSet
  /-- The outputs of the analyzers, by language. -/
  analyzer : TextMap AnalyzerReportSet
  sensors : List SensorReport
  deriving DecidableEq, Repr

namespace RunReport

/-- The records of the sensors that failed. -/
def failedSensors (report : RunReport) : List SensorReport :=
  report.sensors.filter fun sensor => sensor.status.isFailed

/-- Whether no sensor failed. -/
def success (report : RunReport) : Bool :=
  report.failedSensors.isEmpty

end RunReport

/-- What a run reads from outside. -/
structure Surroundings where
  isDirectory : Path → Bool
  now : Timestamp
  /-- The milliseconds that the clock counts for whatever is timed. -/
  millis : Nat

/-- An analysis run. -/
structure AnalysisRun where
  runId : String
  table : LanguageTable
  collectors : Collectors
  policy : EmptyReportPolicy
  /-- The records of all executions so far. -/
  reports : List SensorReport

namespace AnalysisRun

/-- The span around the actions of sensors. -/
def executeSpan : String := "covreg.execute"

/-- The span around the end of a run. -/
def runSpan : String := "covreg.run"

/-- The error of a sensor that stopped without an answer. -/
def noAnswer : String := "sensor task did not complete"

/-- Why a sensor is skipped. -/
def skipReason : String := "language not present in module"

/-- A fresh run over a table. -/
def start (runId : String) (table : LanguageTable) (policy : EmptyReportPolicy) : AnalysisRun where
  runId := runId
  table := table
  collectors := table.names.map fun language _ => Collector.forLanguage language
  policy := policy
  reports := []

/-- All pairs of a module and a sensor, module by module. -/
def pairs (modules : List Module) (sensors : List Sensor) : List (Module × Sensor) :=
  modules.flatMap fun module => sensors.map fun sensor => (module, sensor)

/-- Whether the sensor of a pair applies to the module. -/
def applies (pair : Module × Sensor) : Bool :=
  pair.2.descriptor.appliesTo pair.1.languages

/-- A pair with the ending of its action; nothing where the sensor was skipped. -/
structure Execution where
  module : Module
  sensor : Sensor
  ending : Option Ending

namespace Execution

/-- The status of an execution. -/
def status (execution : Execution) : SensorStatus :=
  match execution.ending with
  | none => .skipped
  | some (.finished _) => .finished
  | some (.failed error) => .failed error.message
  | some .aborted => .failed noAnswer

/-- The outcome of an execution; only a finished one has an outcome of its own. -/
def outcome (execution : Execution) : SensorOutcome :=
  match execution.ending with
  | some (.finished outcome) => outcome
  | _ => .none

/-- The milliseconds of an execution; only one that answered is timed. -/
def millis (execution : Execution) (elapsed : Nat) : Nat :=
  match execution.ending with
  | some (.finished _) => elapsed
  | some (.failed _) => elapsed
  | _ => 0

/-- The record of an execution. -/
def report (execution : Execution) (elapsed : Nat) : SensorReport :=
  ⟨execution.sensor.descriptor.name, execution.module.key, execution.status, execution.outcome,
    execution.millis elapsed⟩

/-- The event of the end of an action. -/
def event? (execution : Execution) (elapsed : Nat) : Option Event :=
  let sensor := execution.sensor.descriptor.name
  match execution.ending with
  | none => none
  | some (.finished outcome) => some (.sensorFinished sensor outcome.contributed elapsed)
  | some (.failed error) => some (.sensorFailed sensor error.message)
  | some .aborted => some .sensorAborted

end Execution

/-- What the actions of a list of pairs leave behind. -/
structure Actions where
  executions : List Execution
  collectors : Collectors
  events : List Event

/-- Runs the actions of the pairs that apply, in order. -/
def act (isDirectory : Path → Bool) : List (Module × Sensor) → Collectors → Actions
  | [], collectors => ⟨[], collectors, []⟩
  | pair :: rest, collectors =>
    if applies pair then
      let effect := pair.2.action ⟨pair.1, isDirectory⟩ collectors
      let others := act isDirectory rest effect.collectors
      ⟨⟨pair.1, pair.2, some effect.ending⟩ :: others.executions, others.collectors,
        effect.events ++ others.events⟩
    else
      let others := act isDirectory rest collectors
      ⟨⟨pair.1, pair.2, none⟩ :: others.executions, others.collectors, others.events⟩

/-- What an execution of sensors answers with. -/
structure Executed where
  run : AnalysisRun
  /-- The records of this execution alone. -/
  reports : List SensorReport
  log : List LogEntry

/-- Executes sensors on modules. -/
def execute (run : AnalysisRun) (outside : Surroundings) (modules : List Module)
    (sensors : List Sensor) : Executed :=
  let all := pairs modules sensors
  let done := act outside.isDirectory all run.collectors
  let reports := done.executions.map fun execution => execution.report outside.millis
  let skipped := (all.filter fun pair => !applies pair).map fun pair =>
    Event.sensorSkipped pair.2.descriptor.name skipReason
  let ended := done.executions.filterMap fun execution => execution.event? outside.millis
  { run := { run with collectors := done.collectors, reports := run.reports ++ reports }
    reports := reports
    log :=
      LogEntry.plain (.runStarted run.runId (modules.length * sensors.length) :: skipped) ++
        LogEntry.within executeSpan (LogEntry.plain done.events) ++ LogEntry.plain ended }

/-- What the report sets of some languages leave behind. -/
structure Built where
  result : Except RegistryError (List CoverageReportSet × TextMap AnalyzerReportSet)
  collectors : Collectors
  events : List Event

/-- Builds the report sets and the analyzer outputs of languages in order; the first failure ends
it. What was built before is given. -/
def build (run : AnalysisRun) (now : Timestamp) :
    List String → Collectors → List CoverageReportSet × TextMap AnalyzerReportSet → Built
  | [], collectors, built => ⟨.ok built, collectors, []⟩
  | language :: rest, collectors, built =>
    match collectors.find language with
    | .error error => ⟨.error error, collectors, []⟩
    | .ok collector =>
      let sets := collector.buildAll run.table run.policy now language
      match sets.result with
      | .error error => ⟨.error error, collectors.insert language sets.collector, sets.events⟩
      | .ok coverage =>
        let analyzer := sets.collector.analyzerReports
        let others :=
          build run now rest (collectors.insert language analyzer.collector)
            (built.1 ++ coverage, built.2.insert language analyzer.result)
        ⟨others.result, others.collectors, sets.events ++ analyzer.events ++ others.events⟩

/-- What the end of a run answers with. -/
structure Finished where
  result : Except RegistryError RunReport
  collectors : Collectors
  log : List LogEntry

/-- Finishes a run with the report sets of the given languages. -/
def finish (run : AnalysisRun) (outside : Surroundings) (languages : List String) : Finished :=
  let built := build run outside.now languages run.collectors ([], .empty)
  let spanned (events : List Event) : List LogEntry :=
    LogEntry.within runSpan (LogEntry.plain events)
  match built.result with
  | .error error => ⟨.error error, built.collectors, spanned built.events⟩
  | .ok (coverage, analyzer) =>
    let report : RunReport := ⟨run.runId, coverage, analyzer, run.reports⟩
    ⟨.ok report, built.collectors,
      spanned (built.events ++
        [.runFinished run.runId outside.millis built.collectors.totalPaths report.success])⟩

/-- The events of the end of a run's collectors. -/
def discard (collectors : Collectors) : List Event :=
  collectors.values.map Collector.discard

end AnalysisRun

end CoverageRegistry
