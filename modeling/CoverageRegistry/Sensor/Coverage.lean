import CoverageRegistry.Language.Table
import CoverageRegistry.Sensor.Basic

/-!
# The sensor of coverage reports

One sensor per language and test scope. It reads the property of every tool in turn and contributes
the listed paths to the tool's bucket.
-/
namespace CoverageRegistry

/-- The events of entries that cannot be normalized. -/
def rejectionEvents (property : String) (rejected : List InvalidPath) : List Event :=
  rejected.map fun error => .pathRejected property error.message

/-- Imports the entries of one property. A property without entries is passed over; one whose
entries are all rejected still contributes an empty batch, which a sealed collector refuses. -/
def importProperty (module : Module) (scope : TestScope) (tool : CoverageTool) (property : String)
    (c : Collector) : Collector.Answer (Except RegistryError SensorOutcome) :=
  let raws := module.settings.list property
  if raws.isEmpty then ⟨.ok .none, c, []⟩
  else
    let (paths, rejected) := normalizeAll raws module.baseDir
    let answer := c.addModulePaths module.key tool.reportKind (some scope) paths
    ⟨answer.result.map fun contributed => ⟨contributed, rejected.length⟩, answer.collector,
      rejectionEvents property rejected ++ answer.events⟩

/-- Imports the entries of several properties; the first failure ends it. -/
def importProperties (module : Module) (scope : TestScope) :
    List (CoverageTool × String) → Collector →
      Collector.Answer (Except RegistryError SensorOutcome)
  | [], c => ⟨.ok .none, c, []⟩
  | (tool, property) :: rest, c =>
    let first := importProperty module scope tool property c
    match first.result with
    | .error error => ⟨.error error, first.collector, first.events⟩
    | .ok outcome =>
      let others := importProperties module scope rest first.collector
      ⟨others.result.map outcome.merge, others.collector, first.events ++ others.events⟩

namespace Sensor

/-- The sensor of a registered language's coverage reports in a scope. -/
def coverage (language : LanguageInfo) (scope : TestScope) : Sensor where
  descriptor :=
    (SensorDescriptor.ofName
      (language.name ++ " " ++ scope.title ++ " Coverage Report Import")).restrictTo language.key
  action context :=
    actOn language.key
      (importProperties context.module scope (CoverageKeys.derive language.key scope).toList)

/-- The same sensor, for a language that may not be registered. -/
def coverageOf (table : LanguageTable) (language : String) (scope : TestScope) :
    Except RegistryError Sensor :=
  (table.language language).map fun info => coverage info scope

end Sensor

end CoverageRegistry
