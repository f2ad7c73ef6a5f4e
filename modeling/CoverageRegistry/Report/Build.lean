import CoverageRegistry.Language.Table
import CoverageRegistry.Report.Set

/-!
# Building report sets

The first read of a collector seals it; a report set then holds what its buckets hold. A language
that is not registered, or not the one that the collector is bound to, is refused before the
collector is sealed.
-/
namespace CoverageRegistry

/-- What to do when no tool has a report. -/
inductive EmptyReportPolicy where
  /-- Build an empty set. -/
  | lenient
  /-- Fail. -/
  | strict
  deriving DecidableEq, Repr

namespace Collector

/-- The reports of every tool in a configuration. -/
def toolReports (c : Collector) (configuration : CoverageConfiguration) : List ToolReports :=
  configuration.keys.toList.map fun entry =>
    ⟨entry.1, entry.2, c.snapshot entry.1.reportKind (some configuration.scope)⟩

/-- Whether the collector is bound to another language. -/
def boundElsewhere? (c : Collector) (language : String) : Option String :=
  c.language.filter fun bound => bound ≠ language

/-- The report set of a language in a scope. -/
def buildReportSet (c : Collector) (table : LanguageTable) (policy : EmptyReportPolicy)
    (now : Timestamp) (language : String) (scope : TestScope) :
    Answer (Except RegistryError CoverageReportSet) :=
  match table.configuration language scope with
  | .error error => ⟨.error error, c, []⟩
  | .ok configuration =>
    match c.boundElsewhere? language with
    | some bound => ⟨.error (.languageMismatch bound language), c, []⟩
    | none =>
      let closed := c.sealUp
      let set : CoverageReportSet :=
        ⟨language, scope, closed.collector.toolReports configuration, now⟩
      if set.isEmpty && policy = .strict then
        ⟨.error (.emptyReportSet language scope), closed.collector, closed.events⟩
      else
        ⟨.ok set, closed.collector,
          closed.events ++ [.reportSetBuilt language scope set.totalPaths]⟩

/-- The report sets of a language in some scopes; the first failure ends it. -/
def buildScopes (c : Collector) (table : LanguageTable) (policy : EmptyReportPolicy)
    (now : Timestamp) (language : String) :
    List TestScope → Answer (Except RegistryError (List CoverageReportSet))
  | [] => ⟨.ok [], c, []⟩
  | scope :: scopes =>
    let first := c.buildReportSet table policy now language scope
    match first.result with
    | .error error => ⟨.error error, first.collector, first.events⟩
    | .ok set =>
      let others := buildScopes first.collector table policy now language scopes
      ⟨others.result.map (set :: ·), others.collector, first.events ++ others.events⟩

/-- The report sets of a language in both scopes. -/
def buildAll (c : Collector) (table : LanguageTable) (policy : EmptyReportPolicy)
    (now : Timestamp) (language : String) :
    Answer (Except RegistryError (List CoverageReportSet)) :=
  c.buildScopes table policy now language TestScope.all

/-- The outputs of the analyzer. -/
def analyzerReports (c : Collector) : Answer AnalyzerReportSet :=
  let closed := c.sealUp
  ⟨⟨closed.collector.snapshot .protobuf none, closed.collector.roslynReports⟩,
    closed.collector, closed.events⟩

end Collector

end CoverageRegistry
