import CoverageRegistry.Kind

/-!
# Languages and their property keys

A language has a short key, used in the names of properties, and a name for people. The properties
that list its reports are named after the key, the tool and the scope.
-/
namespace CoverageRegistry

/-- The first word of every property key. -/
def keyRoot : String := "sonar"

/-- A registered language. -/
structure LanguageInfo where
  /-- The key used in property names. -/
  key : String
  /-- The name used in sensor names. -/
  name : String
  deriving DecidableEq, Repr

namespace LanguageInfo

/-- The property that lists the output directories of the analyzer's projects. -/
def projectOutPathsKey (language : LanguageInfo) : String :=
  keyRoot ++ "." ++ language.key ++ ".analyzer.projectOutPaths"

/-- The property that lists the report files of the analyzer. -/
def roslynReportPathsKey (language : LanguageInfo) : String :=
  keyRoot ++ "." ++ language.key ++ ".roslyn.reportFilePaths"

/-- The directory that the analyzer writes into, below a project's output directory. -/
def analyzerOutputDir (language : LanguageInfo) : String :=
  "output-" ++ language.key

end LanguageInfo

/-- The property that lists the reports of a tool in a scope. -/
def coverageKey (language : String) (scope : TestScope) (tool : CoverageTool) : String :=
  keyRoot ++ "." ++ language ++ "." ++ tool.slug ++ scope.keyInfix ++ ".reportsPaths"

/-- One property key per tool. -/
structure CoverageKeys where
  ncover3 : String
  opencover : String
  dotcover : String
  vsXml : String
  deriving DecidableEq, Repr

namespace CoverageKeys

/-- The keys of a language in a scope. -/
def derive (language : String) (scope : TestScope) : CoverageKeys where
  ncover3 := coverageKey language scope .ncover3
  opencover := coverageKey language scope .opencover
  dotcover := coverageKey language scope .dotcover
  vsXml := coverageKey language scope .visualStudioXml

/-- The key of a tool. -/
def get (keys : CoverageKeys) : CoverageTool → String
  | .ncover3 => keys.ncover3
  | .opencover => keys.opencover
  | .dotcover => keys.dotcover
  | .visualStudioXml => keys.vsXml

/-- The tools with their keys, in the order of the tools. -/
def toList (keys : CoverageKeys) : List (CoverageTool × String) :=
  CoverageTool.all.map fun tool => (tool, keys.get tool)

@[simp] theorem get_derive (language : String) (scope : TestScope) (tool : CoverageTool) :
    (derive language scope).get tool = coverageKey language scope tool := by
  cases tool <;> rfl

end CoverageKeys

/-- A language in a test scope. -/
structure CoverageConfiguration where
  language : String
  scope : TestScope
  deriving DecidableEq, Repr

namespace CoverageConfiguration

/-- The property keys of a configuration. -/
def keys (configuration : CoverageConfiguration) : CoverageKeys :=
  .derive configuration.language configuration.scope

/-- The property key of a tool. -/
def key (configuration : CoverageConfiguration) (tool : CoverageTool) : String :=
  configuration.keys.get tool

end CoverageConfiguration

end CoverageRegistry
