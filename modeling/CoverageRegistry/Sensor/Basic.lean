import CoverageRegistry.Collector
import CoverageRegistry.FileSystem
import CoverageRegistry.Settings

/-!
# Sensors

A sensor reads the settings of one module and contributes report paths to the collectors of a run.
It is given by its description and its action; the action sees the module, may ask which directories
exist, and answers with how it ended, the collectors after it, and its events.
-/
namespace CoverageRegistry

/-- What is known of a sensor before it runs. -/
structure SensorDescriptor where
  name : String
  /-- The language that the sensor is restricted to. -/
  onlyOnLanguage : Option String
  deriving DecidableEq, Repr

namespace SensorDescriptor

/-- The descriptor of a sensor for every language. -/
def ofName (name : String) : SensorDescriptor := ⟨name, none⟩

/-- The same descriptor, restricted to a language. -/
def restrictTo (descriptor : SensorDescriptor) (language : String) : SensorDescriptor :=
  { descriptor with onlyOnLanguage := some language }

/-- Whether the sensor runs on a module with the given languages. -/
def appliesTo (descriptor : SensorDescriptor) (languages : List String) : Bool :=
  match descriptor.onlyOnLanguage with
  | none => true
  | some language => languages.contains language

end SensorDescriptor

/-- A module of the analysed project. -/
structure Module where
  key : ModuleKey
  baseDir : Path
  settings : Settings
  /-- The languages that the module declares. -/
  languages : List String
  deriving DecidableEq, Repr

/-- A module with the given languages, in order and each once. -/
def Module.declaring (key : ModuleKey) (baseDir : Path) (settings : Settings)
    (languages : List String) : Module :=
  ⟨key, baseDir, settings, (TextMap.ofList (languages.map fun language => (language, ()))).keys⟩

/-- How many paths a sensor contributed, and how many entries it could not normalize. -/
structure SensorOutcome where
  contributed : Nat
  rejected : Nat
  deriving DecidableEq, Repr

namespace SensorOutcome

/-- Nothing was contributed and nothing rejected. -/
def none : SensorOutcome := ⟨0, 0⟩

/-- Both outcomes together. -/
def merge (a b : SensorOutcome) : SensorOutcome :=
  ⟨a.contributed + b.contributed, a.rejected + b.rejected⟩

end SensorOutcome

/-- The collectors of a run, by language. -/
abbrev Collectors := TextMap Collector

/-- What a sensor sees of its surroundings while it runs on a module. -/
structure SensorContext where
  module : Module
  isDirectory : Path → Bool

/-- How a sensor's action ends. -/
inductive Ending where
  | finished (outcome : SensorOutcome)
  | failed (error : RegistryError)
  /-- Without an answer. -/
  | aborted
  deriving DecidableEq, Repr

/-- What a sensor's action answers with. -/
structure Effect where
  ending : Ending
  collectors : Collectors
  events : List Event

/-- A sensor. -/
structure Sensor where
  descriptor : SensorDescriptor
  action : SensorContext → Collectors → Effect

namespace Collectors

/-- The collector of a language. -/
def find (collectors : Collectors) (language : String) : Except RegistryError Collector :=
  match collectors.get? language with
  | some collector => .ok collector
  | none => .error (.unknownLanguage language)

/-- The collectors of a single one: its language leads to it. An unbound one is found under no
language. -/
def ofCollector (collector : Collector) : Collectors :=
  match collector.language with
  | some language => TextMap.empty.insert language collector
  | none => TextMap.empty

/-- The number of paths in all collectors. -/
def totalPaths (collectors : Collectors) : Nat :=
  (collectors.values.flatMap Collector.allEntries).length

end Collectors

/-- An action on the collector of one language, as an action on all of them. It fails where the
language has no collector. -/
def actOn (language : String)
    (action : Collector → Collector.Answer (Except RegistryError SensorOutcome))
    (collectors : Collectors) : Effect :=
  match collectors.find language with
  | .error error => ⟨.failed error, collectors, []⟩
  | .ok collector =>
    let answer := action collector
    ⟨match answer.result with
      | .ok outcome => .finished outcome
      | .error error => .failed error,
     collectors.insert language answer.collector, answer.events⟩

end CoverageRegistry
