import CoverageRegistry.Collector
import CoverageRegistry.Sha256
import CoverageRegistry.Timestamp

/-!
# Report sets

The coverage reports of a language in a scope, tool by tool, and the outputs of an analyzer. A
report set has a digest of its content: the hash of a sequence of octets,
`CoverageReportSet.content`, that names the language, the scope, and the paths of every tool in
order, each ended by a zero.
-/
namespace CoverageRegistry

/-- The reports of one tool. -/
structure ToolReports where
  tool : CoverageTool
  /-- The property that lists them. -/
  propertyKey : String
  paths : List Path
  deriving DecidableEq, Repr

/-- The reports of a language in a scope. -/
structure CoverageReportSet where
  language : String
  scope : TestScope
  reports : List ToolReports
  generatedAt : Timestamp
  deriving DecidableEq, Repr

namespace CoverageReportSet

/-- The paths of a tool: those of its first reports. -/
def paths (set : CoverageReportSet) (tool : CoverageTool) : List Path :=
  ((set.reports.find? fun reports => reports.tool = tool).map ToolReports.paths).getD []

/-- Whether no tool has a report. -/
def isEmpty (set : CoverageReportSet) : Bool :=
  set.reports.all fun reports => reports.paths.isEmpty

/-- The number of reports. -/
def totalPaths (set : CoverageReportSet) : Nat :=
  (set.reports.flatMap ToolReports.paths).length

/-- The tools that have a report. -/
def toolsWithReports (set : CoverageReportSet) : List CoverageTool :=
  (set.reports.filter fun reports => !reports.paths.isEmpty).map ToolReports.tool

/-- A text with a zero after it, in octets. -/
def field (text : String) : List UInt8 :=
  Utf8.encode text.toList ++ [0]

/-- The octets that the digest is made of. -/
def content (set : CoverageReportSet) : List UInt8 :=
  field set.language ++ field set.scope.name ++
    set.reports.flatMap fun reports =>
      field reports.tool.slug ++ reports.paths.flatMap fun path => field path.display

/-- The digest of a report set; the time of its making does not count. -/
def digest (set : CoverageReportSet) : String :=
  Sha256.hex (Sha256.hash set.content)

end CoverageReportSet

/-- The outputs of an analyzer. -/
structure AnalyzerReportSet where
  protobufDirs : List Path
  roslynReports : List RoslynReport
  deriving DecidableEq, Repr

end CoverageRegistry
