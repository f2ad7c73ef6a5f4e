import CoverageRegistry.Sensor.Coverage

/-!
# The sensor of analyzer outputs

An analyzer writes a directory below each project's output directory, and report files. Both are
listed in properties of the module.
-/
namespace CoverageRegistry

/-- Where the analyzer of a language writes, after the settings of a module. -/
structure AnalyzerConfiguration where
  language : LanguageInfo
  settings : Settings
  baseDir : Path
  deriving DecidableEq, Repr

namespace AnalyzerConfiguration

/-- The output directory that an entry leads to, by its text. -/
def outputDir (configuration : AnalyzerConfiguration) (raw : String) :
    Except InvalidPath Path :=
  normalize (raw ++ "/" ++ configuration.language.analyzerOutputDir) configuration.baseDir

/-- The output directories of the listed projects, whether they exist or not. -/
def candidates (configuration : AnalyzerConfiguration) : List Path :=
  (configuration.settings.list configuration.language.projectOutPathsKey).filterMap fun raw =>
    (configuration.outputDir raw).toOption

/-- The output directories of the listed projects that exist. -/
def protobufReportPaths (configuration : AnalyzerConfiguration) (isDirectory : Path → Bool) :
    List Path :=
  configuration.candidates.filter isDirectory

/-- The event of an entry that leads to no directory. -/
def protobufEvent? (configuration : AnalyzerConfiguration) (isDirectory : Path → Bool)
    (raw : String) : Option Event :=
  let property := configuration.language.projectOutPathsKey
  match configuration.outputDir raw with
  | .error error => some (.pathRejected property error.message)
  | .ok dir => if isDirectory dir then none else some (.outputDirMissing property dir.display)

/-- The events of reading the output directories. -/
def protobufEvents (configuration : AnalyzerConfiguration) (isDirectory : Path → Bool) :
    List Event :=
  (configuration.settings.list configuration.language.projectOutPathsKey).filterMap
    (configuration.protobufEvent? isDirectory)

/-- The listed report files, with the errors of entries that cannot be normalized. -/
def roslynEntries (configuration : AnalyzerConfiguration) : List Path × List InvalidPath :=
  normalizeAll (configuration.settings.list configuration.language.roslynReportPathsKey)
    configuration.baseDir

/-- The listed report files. -/
def roslynReportPaths (configuration : AnalyzerConfiguration) : List Path :=
  configuration.roslynEntries.1

/-- The events of reading the report files. -/
def roslynEvents (configuration : AnalyzerConfiguration) : List Event :=
  rejectionEvents configuration.language.roslynReportPathsKey configuration.roslynEntries.2

end AnalyzerConfiguration

/-- Contributes a batch, unless it is empty. -/
def offerUnlessEmpty {α : Type} (items : List α)
    (add : List α → Collector.Answer (Except RegistryError Nat)) (c : Collector) :
    Collector.Answer (Except RegistryError Nat) :=
  if items.isEmpty then ⟨.ok 0, c, []⟩ else add items

/-- Contributes the analyzer outputs of a module: the directories, then the report files. -/
def importAnalyzerOutputs (language : LanguageInfo) (context : SensorContext) (c : Collector) :
    Collector.Answer (Except RegistryError SensorOutcome) :=
  let module := context.module
  let configuration : AnalyzerConfiguration := ⟨language, module.settings, module.baseDir⟩
  let dirs :=
    offerUnlessEmpty (configuration.protobufReportPaths context.isDirectory) c.addProtobufDirs c
  let dirEvents := configuration.protobufEvents context.isDirectory ++ dirs.events
  match dirs.result with
  | .error error => ⟨.error error, dirs.collector, dirEvents⟩
  | .ok dirCount =>
    let files :=
      offerUnlessEmpty
        (configuration.roslynReportPaths.map fun path => (⟨module.key, path⟩ : RoslynReport))
        dirs.collector.addRoslynReports dirs.collector
    let events := dirEvents ++ configuration.roslynEvents ++ files.events
    match files.result with
    | .error error => ⟨.error error, files.collector, events⟩
    | .ok fileCount =>
      let contributed := dirCount + fileCount
      ⟨.ok ⟨contributed, 0⟩, files.collector,
        events ++ [.propertiesCollected module.key contributed]⟩

namespace Sensor

/-- The sensor of a language's analyzer outputs. -/
def properties (language : LanguageInfo) : Sensor where
  descriptor := (SensorDescriptor.ofName (language.name ++ " Properties")).restrictTo language.key
  action context := actOn language.key (importAnalyzerOutputs language context)

/-- The sensors of a registered language: analyzer outputs, then coverage reports per scope. -/
def forLanguage (table : LanguageTable) (language : String) :
    Except RegistryError (List Sensor) :=
  (table.language language).map fun info =>
    properties info :: TestScope.all.map (coverage info)

end Sensor

end CoverageRegistry
