import CoverageRegistry.Codec.Basic
import CoverageRegistry.Report.Build

/-!
# JSON forms of kinds, paths and report sets

Every type is written by `toJson` (`toJson?` where a path that is not UTF-8 has no form) and read by
`ofJson?`.
-/
namespace CoverageRegistry

open Codec

namespace TestScope

def toJson (scope : TestScope) : Json := .string scope.name

def ofJson? : Json → Option TestScope := choice? name all

/-- A scope that may be missing. -/
def optionToJson (scope : Option TestScope) : Json := .ofOption (scope.map toJson)

end TestScope

namespace CoverageTool

/-- The name of a tool in JSON forms. -/
def jsonName : CoverageTool → String
  | ncover3 => "n_cover3"
  | opencover => "open_cover"
  | dotcover => "dot_cover"
  | visualStudioXml => "visual_studio_xml"

def toJson (tool : CoverageTool) : Json := .string tool.jsonName

def ofJson? : Json → Option CoverageTool := choice? jsonName all

end CoverageTool

namespace ReportKind

/-- The name of a kind in JSON forms. -/
def jsonName : ReportKind → String
  | ncover3 => "n_cover3"
  | opencover => "open_cover"
  | dotcover => "dot_cover"
  | vsXml => "vs_xml"
  | protobuf => "protobuf"
  | roslyn => "roslyn"

def toJson (kind : ReportKind) : Json := .string kind.jsonName

def ofJson? : Json → Option ReportKind := choice? jsonName all

end ReportKind

namespace Phase

/-- The name of a phase. -/
def name : Phase → String
  | init => "init"
  | collecting => "collecting"
  | sealed => "sealed"

def toJson (phase : Phase) : Json := .string phase.name

def ofJson? : Json → Option Phase := choice? name [init, collecting, sealed]

end Phase

namespace EmptyReportPolicy

/-- The name of a policy. -/
def name : EmptyReportPolicy → String
  | lenient => "lenient"
  | strict => "strict"

def toJson (policy : EmptyReportPolicy) : Json := .string policy.name

def ofJson? : Json → Option EmptyReportPolicy := choice? name [lenient, strict]

end EmptyReportPolicy

namespace BucketKey

def toJson (key : BucketKey) : Json :=
  .object [("kind", key.kind.toJson), ("scope", TestScope.optionToJson key.scope)]

def ofJson? (value : Json) : Option BucketKey := do
  match ← record? ["kind", "scope"] value with
  | [kind, scope] => return ⟨← required ReportKind.ofJson? kind, ← optional TestScope.ofJson? scope⟩
  | _ => none

end BucketKey

namespace Path

/-- A path is written as its text. -/
def toJson? (path : Path) : Option Json := path.text?.map .string

def ofJson? (value : Json) : Option Path := value.text?.map ofText

/-- An array of paths. -/
def listToJson? (paths : List Path) : Option Json := (paths.mapM toJson?).map .array

end Path

namespace LanguageInfo

def toJson (info : LanguageInfo) : Json :=
  .object [("key", .string info.key), ("name", .string info.name)]

def ofJson? (value : Json) : Option LanguageInfo := do
  match ← record? ["key", "name"] value with
  | [key, name] => return ⟨← required Json.text? key, ← required Json.text? name⟩
  | _ => none

end LanguageInfo

namespace CoverageKeys

def toJson (keys : CoverageKeys) : Json :=
  .object [("ncover3", .string keys.ncover3), ("opencover", .string keys.opencover),
    ("dotcover", .string keys.dotcover), ("vs_xml", .string keys.vsXml)]

def ofJson? (value : Json) : Option CoverageKeys := do
  match ← record? ["ncover3", "opencover", "dotcover", "vs_xml"] value with
  | [ncover3, opencover, dotcover, vsXml] =>
    return ⟨← required Json.text? ncover3, ← required Json.text? opencover,
      ← required Json.text? dotcover, ← required Json.text? vsXml⟩
  | _ => none

end CoverageKeys

namespace CoverageConfiguration

def toJson (configuration : CoverageConfiguration) : Json :=
  .object [("language", .string configuration.language), ("scope", configuration.scope.toJson),
    ("keys", configuration.keys.toJson)]

end CoverageConfiguration

namespace ReportEntry

def toJson? (entry : ReportEntry) : Option Json := do
  return .object [("path", ← entry.path.toJson?),
    ("module", .ofOption (entry.module.map .string)), ("kind", entry.kind.toJson),
    ("scope", TestScope.optionToJson entry.scope)]

def ofJson? (value : Json) : Option ReportEntry := do
  match ← record? ["path", "module", "kind", "scope"] value with
  | [path, module, kind, scope] =>
    return ⟨← required Path.ofJson? path, ← optional Json.text? module,
      ← required ReportKind.ofJson? kind, ← optional TestScope.ofJson? scope⟩
  | _ => none

end ReportEntry

namespace RoslynReport

def toJson? (report : RoslynReport) : Option Json := do
  return .object [("module", .string report.module), ("path", ← report.path.toJson?)]

def ofJson? (value : Json) : Option RoslynReport := do
  match ← record? ["module", "path"] value with
  | [module, path] => return ⟨← required Json.text? module, ← required Path.ofJson? path⟩
  | _ => none

end RoslynReport

namespace ToolReports

def toJson? (reports : ToolReports) : Option Json := do
  return .object [("tool", reports.tool.toJson), ("property_key", .string reports.propertyKey),
    ("paths", ← Path.listToJson? reports.paths)]

def ofJson? (value : Json) : Option ToolReports := do
  match ← record? ["tool", "property_key", "paths"] value with
  | [tool, propertyKey, paths] =>
    return ⟨← required CoverageTool.ofJson? tool, ← required Json.text? propertyKey,
      ← required (list? Path.ofJson?) paths⟩
  | _ => none

end ToolReports

namespace Timestamp

def toJson (t : Timestamp) : Json := .string t.render

def ofJson? (value : Json) : Option Timestamp := value.text?.bind parse?

end Timestamp

namespace CoverageReportSet

def toJson? (set : CoverageReportSet) : Option Json := do
  return .object [("language", .string set.language), ("scope", set.scope.toJson),
    ("reports", .array (← set.reports.mapM ToolReports.toJson?)),
    ("generated_at", set.generatedAt.toJson)]

def ofJson? (value : Json) : Option CoverageReportSet := do
  match ← record? ["language", "scope", "reports", "generated_at"] value with
  | [language, scope, reports, generatedAt] =>
    return ⟨← required Json.text? language, ← required TestScope.ofJson? scope,
      ← required (list? ToolReports.ofJson?) reports, ← required Timestamp.ofJson? generatedAt⟩
  | _ => none

end CoverageReportSet

namespace AnalyzerReportSet

def toJson? (set : AnalyzerReportSet) : Option Json := do
  return .object [("protobuf_dirs", ← Path.listToJson? set.protobufDirs),
    ("roslyn_reports", .array (← set.roslynReports.mapM RoslynReport.toJson?))]

def ofJson? (value : Json) : Option AnalyzerReportSet := do
  match ← record? ["protobuf_dirs", "roslyn_reports"] value with
  | [protobufDirs, roslynReports] =>
    return ⟨← required (list? Path.ofJson?) protobufDirs,
      ← required (list? RoslynReport.ofJson?) roslynReports⟩
  | _ => none

end AnalyzerReportSet

end CoverageRegistry
