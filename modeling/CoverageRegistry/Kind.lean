import CoverageRegistry.Text.Blank

/-!
# Kinds of reports

Which tests a report covers, which tool wrote it, and the bucket of the registry that holds it. A
coverage report belongs to a test scope; the output of an analyzer belongs to none. A bucket key
that respects this rule is *admissible*.
-/
namespace CoverageRegistry

/-- Which tests a coverage report covers. -/
inductive TestScope where
  | unit
  | integration
  deriving DecidableEq, Repr, Ord

namespace TestScope

/-- Both scopes, in order. -/
def all : List TestScope := [unit, integration]

/-- The name of a scope. -/
def name : TestScope → String
  | unit => "unit"
  | integration => "integration"

/-- The name of a scope in the name of a sensor. -/
def title : TestScope → String
  | unit => "Unit Tests"
  | integration => "Integration Tests"

/-- What a scope adds to a property key. -/
def keyInfix : TestScope → String
  | unit => ""
  | integration => ".it"

/-- The scope that a lower-case word names, in its long or its short form. -/
def ofWord? (word : String) : Option TestScope :=
  if word = "unit" ∨ word = "ut" then some unit
  else if word = "integration" ∨ word = "it" then some integration
  else none

/-- The word a text gives for a scope: without blanks at its ends and with ASCII letters in lower
case. -/
def wordOf (text : String) : String :=
  String.ofList ((Text.trimList text.toList).map Char.toLower)

/-- Reads a scope; the error is the word that names none. -/
def parse (text : String) : Except String TestScope :=
  match ofWord? (wordOf text) with
  | some scope => .ok scope
  | none => .error (wordOf text)

end TestScope

/-- The name of a scope that may be missing. -/
def scopeLabel (scope : Option TestScope) : String :=
  (scope.map TestScope.name).getD "none"

/-- A tool that writes coverage reports. -/
inductive CoverageTool where
  | ncover3
  | opencover
  | dotcover
  | visualStudioXml
  deriving DecidableEq, Repr, Ord

namespace CoverageTool

/-- All tools, in the order of every report. -/
def all : List CoverageTool := [ncover3, opencover, dotcover, visualStudioXml]

/-- The name of a tool in property keys and messages. -/
def slug : CoverageTool → String
  | ncover3 => "ncover3"
  | opencover => "opencover"
  | dotcover => "dotcover"
  | visualStudioXml => "vscoveragexml"

/-- The name of a tool for people. -/
def displayName : CoverageTool → String
  | ncover3 => "NCover3"
  | opencover => "OpenCover"
  | dotcover => "dotCover"
  | visualStudioXml => "Visual Studio"

/-- The extension that the reports of a tool usually have. -/
def extensionHint : CoverageTool → String
  | ncover3 => "nccov"
  | opencover => "xml"
  | dotcover => "html"
  | visualStudioXml => "coveragexml"

end CoverageTool

/-- What a bucket of the registry holds. -/
inductive ReportKind where
  | ncover3
  | opencover
  | dotcover
  | vsXml
  /-- Output directories of an analyzer. -/
  | protobuf
  /-- Report files of an analyzer. -/
  | roslyn
  deriving DecidableEq, Repr, Ord

namespace ReportKind

/-- All kinds, in order. -/
def all : List ReportKind := [ncover3, opencover, dotcover, vsXml, protobuf, roslyn]

/-- The tool that writes reports of a kind; nothing for the output of an analyzer. -/
def coverageTool? : ReportKind → Option CoverageTool
  | ncover3 => some .ncover3
  | opencover => some .opencover
  | dotcover => some .dotcover
  | vsXml => some .visualStudioXml
  | protobuf => none
  | roslyn => none

/-- Whether reports of a kind are coverage reports. -/
def isCoverage (kind : ReportKind) : Bool :=
  kind.coverageTool?.isSome

/-- The name of a kind in messages. -/
def label : ReportKind → String
  | ncover3 => CoverageTool.ncover3.slug
  | opencover => CoverageTool.opencover.slug
  | dotcover => CoverageTool.dotcover.slug
  | vsXml => CoverageTool.visualStudioXml.slug
  | protobuf => "protobuf"
  | roslyn => "roslyn"

end ReportKind

/-- The kind of the reports that a tool writes. -/
def CoverageTool.reportKind : CoverageTool → ReportKind
  | ncover3 => .ncover3
  | opencover => .opencover
  | dotcover => .dotcover
  | visualStudioXml => .vsXml

@[simp] theorem ReportKind.coverageTool?_reportKind (tool : CoverageTool) :
    tool.reportKind.coverageTool? = some tool := by
  cases tool <;> rfl

@[simp] theorem CoverageTool.isCoverage_reportKind (tool : CoverageTool) :
    tool.reportKind.isCoverage = true := by
  cases tool <;> rfl

/-- The key of a bucket. -/
structure BucketKey where
  kind : ReportKind
  scope : Option TestScope
  deriving DecidableEq, Repr, Ord

namespace BucketKey

/-- A key has a scope exactly when its kind is a coverage kind. -/
def Admissible (key : BucketKey) : Prop :=
  key.scope.isSome = key.kind.isCoverage

instance (key : BucketKey) : Decidable key.Admissible :=
  inferInstanceAs (Decidable (_ = _))

/-- The bucket of a tool's reports in a scope. -/
def coverage (tool : CoverageTool) (scope : TestScope) : BucketKey :=
  ⟨tool.reportKind, some scope⟩

/-- The bucket of analyzer output directories. -/
def protobuf : BucketKey := ⟨.protobuf, none⟩

/-- The bucket of analyzer report files. -/
def roslyn : BucketKey := ⟨.roslyn, none⟩

theorem admissible_coverage (tool : CoverageTool) (scope : TestScope) :
    (coverage tool scope).Admissible := by
  cases tool <;> rfl

theorem admissible_protobuf : protobuf.Admissible := rfl

theorem admissible_roslyn : roslyn.Admissible := rfl

end BucketKey

end CoverageRegistry
