import CoverageRegistry.Proofs.Language.Lookup
import CoverageRegistry.Report.Build

/-!
# What a read of a collector leaves and answers

A read of a collector seals it and changes nothing else: afterwards it is
`Collector.closed`, whatever the read answers. The report set that a read finds is
`Collector.reportSet`, which looks at the buckets only, so it is the same before
and after sealing. The language checks come first, and a read that fails them
leaves the collector as it was.
-/

namespace CoverageRegistry

/-- A reader of a collector: the languages it knows, and its policy. -/
structure Aggregator where
  table : LanguageTable
  policy : EmptyReportPolicy

namespace Collector

/-! ## Sealing -/

/-- The same collector, sealed. -/
def closed (c : Collector) : Collector :=
  { c with phase := .sealed }

theorem closed_of_isSealed {c : Collector} (h : c.isSealed = true) : c.closed = c := by
  have hphase : c.phase = .sealed := of_decide_eq_true h
  cases c
  cases hphase
  rfl

theorem sealUp_collector (c : Collector) : c.sealUp.collector = c.closed := by
  unfold sealUp
  split
  · rename_i h
    exact (closed_of_isSealed h).symm
  · rfl

theorem sealUp_result (c : Collector) : c.sealUp.result = !c.isSealed := by
  unfold sealUp
  split
  · rename_i h
    simp [h]
  · rename_i h
    simp [h]

/-! ## Report sets -/

/-- The report set of a language in a scope: what the buckets of the scope hold. -/
def reportSet (c : Collector) (now : Timestamp) (language : String)
    (scope : TestScope) : CoverageReportSet :=
  ⟨language, scope, c.toolReports ⟨language, scope⟩, now⟩

/-- The language checks of a reader: it knows the language, and the collector is
not bound to another one. -/
def Admits (c : Collector) (table : LanguageTable) (language : String) : Prop :=
  table.contains language = true ∧ c.boundElsewhere? language = none

instance (c : Collector) (table : LanguageTable) (language : String) :
    Decidable (c.Admits table language) :=
  inferInstanceAs (Decidable (_ ∧ _))

theorem admits_closed {c : Collector} {table : LanguageTable} {language : String} :
    c.closed.Admits table language ↔ c.Admits table language := Iff.rfl

/-- Why the language checks fail: an unknown language comes before a binding to
another one. -/
def refusal (c : Collector) (table : LanguageTable) (language : String) :
    RegistryError :=
  if table.contains language then
    .languageMismatch ((c.boundElsewhere? language).getD language) language
  else .unknownLanguage language

variable {c : Collector} {table : LanguageTable} {language : String}

theorem buildReportSet_of_not_admits (h : ¬ c.Admits table language)
    (policy : EmptyReportPolicy) (now : Timestamp) (scope : TestScope) :
    c.buildReportSet table policy now language scope
      = ⟨.error (c.refusal table language), c, []⟩ := by
  unfold buildReportSet refusal
  by_cases hknown : table.contains language = true
  · rw [LanguageTable.configuration_of_contains hknown, if_pos hknown]
    cases hbound : c.boundElsewhere? language with
    | none => exact absurd ⟨hknown, hbound⟩ h
    | some bound => rfl
  · rw [LanguageTable.configuration_of_not_contains (by simpa using hknown),
      if_neg hknown]

/-- A read that passes its checks seals the collector, also when it fails for want
of reports. -/
theorem buildReportSet_of_admits (h : c.Admits table language)
    (policy : EmptyReportPolicy) (now : Timestamp) (scope : TestScope) :
    (c.buildReportSet table policy now language scope).collector = c.closed
      ∧ (c.buildReportSet table policy now language scope).result
        = if (c.reportSet now language scope).isEmpty && policy = .strict then
            .error (.emptyReportSet language scope)
          else .ok (c.reportSet now language scope) := by
  have hset : c.sealUp.collector.toolReports ⟨language, scope⟩
      = c.toolReports ⟨language, scope⟩ := by
    rw [sealUp_collector]
    rfl
  unfold buildReportSet
  simp only [LanguageTable.configuration_of_contains h.1 scope, h.2, hset]
  split
  · rename_i hempty
    exact ⟨sealUp_collector c, (if_pos hempty).symm⟩
  · rename_i hempty
    exact ⟨sealUp_collector c, (if_neg hempty).symm⟩

/-- A reader that is answered knows the language, and gets what the buckets hold. -/
theorem eq_reportSet_of_result {policy : EmptyReportPolicy} {now : Timestamp}
    {scope : TestScope} {set : CoverageReportSet}
    (h : (c.buildReportSet table policy now language scope).result = .ok set) :
    table.contains language = true ∧ set = c.reportSet now language scope := by
  by_cases hadmits : c.Admits table language
  · rw [(buildReportSet_of_admits hadmits policy now scope).2] at h
    split at h
    · cases h
    · exact ⟨hadmits.1, (Except.ok.inj h).symm⟩
  · rw [buildReportSet_of_not_admits hadmits] at h
    cases h

/-- The first scope that a reader finds without reports and does not accept. -/
def firstEmpty? (c : Collector) (policy : EmptyReportPolicy) (now : Timestamp)
    (language : String) (scopes : List TestScope) : Option TestScope :=
  scopes.find? fun scope =>
    (c.reportSet now language scope).isEmpty && policy = .strict

theorem firstEmpty?_cons (c : Collector) (policy : EmptyReportPolicy) (now : Timestamp)
    (language : String) (scope : TestScope) (scopes : List TestScope) :
    c.firstEmpty? policy now language (scope :: scopes)
      = if (c.reportSet now language scope).isEmpty && policy = .strict then some scope
        else c.firstEmpty? policy now language scopes := by
  rw [firstEmpty?, List.find?_cons]
  split
  · rename_i hempty
    rw [if_pos hempty]
  · rename_i hempty
    rw [if_neg (by simp [hempty])]
    rfl

@[simp] theorem firstEmpty?_closed (c : Collector) (policy : EmptyReportPolicy)
    (now : Timestamp) (language : String) (scopes : List TestScope) :
    c.closed.firstEmpty? policy now language scopes
      = c.firstEmpty? policy now language scopes := rfl

theorem firstEmpty?_lenient (c : Collector) (now : Timestamp) (language : String)
    (scopes : List TestScope) :
    c.firstEmpty? .lenient now language scopes = none := by
  simp [firstEmpty?]

/-- A strict reader does not accept the first set without reports. -/
theorem firstEmpty?_strict (c : Collector) (now : Timestamp) (language : String)
    (scopes : List TestScope) :
    c.firstEmpty? .strict now language scopes
      = ((scopes.map (c.reportSet now language)).find? CoverageReportSet.isEmpty).map
          CoverageReportSet.scope := by
  have hscope : ∀ found : Option TestScope,
      (found.map (c.reportSet now language)).map CoverageReportSet.scope = found := by
    intro found
    cases found <;> rfl
  rw [List.find?_map, hscope, firstEmpty?]
  congr 1
  funext scope
  simp

/-- The sets of several scopes: the first empty one that is not accepted is the
error, and the collector is sealed as soon as one scope is read. -/
theorem buildScopes_of_admits (policy : EmptyReportPolicy) (now : Timestamp) :
    ∀ (scopes : List TestScope) {c : Collector}, c.Admits table language →
    (c.buildScopes table policy now language scopes).collector
        = (if scopes.isEmpty then c else c.closed)
      ∧ (c.buildScopes table policy now language scopes).result
        = match c.firstEmpty? policy now language scopes with
          | some scope => .error (.emptyReportSet language scope)
          | none => .ok (scopes.map (c.reportSet now language)) := by
  intro scopes
  induction scopes with
  | nil => intro c _; exact ⟨rfl, rfl⟩
  | cons scope rest ih =>
    intro c h
    obtain ⟨hcollector, hresult⟩ := buildReportSet_of_admits h policy now scope
    obtain ⟨hrest, hsets⟩ := ih (admits_closed.mpr h)
    unfold buildScopes
    rw [List.isEmpty_cons, if_neg (by decide), firstEmpty?_cons]
    by_cases hempty : ((c.reportSet now language scope).isEmpty
        && policy = .strict) = true
    · rw [if_pos hempty] at hresult
      rw [if_pos hempty]
      simp only [hresult]
      exact ⟨hcollector, trivial⟩
    · rw [if_neg hempty] at hresult
      rw [if_neg hempty]
      simp only [hresult, hcollector, hrest, hsets, firstEmpty?_closed]
      refine ⟨by split <;> rfl, ?_⟩
      cases c.firstEmpty? policy now language rest <;> rfl

theorem buildScopes_of_not_admits (h : ¬ c.Admits table language)
    (policy : EmptyReportPolicy) (now : Timestamp) (scope : TestScope)
    (scopes : List TestScope) :
    (c.buildScopes table policy now language (scope :: scopes)).result
        = .error (c.refusal table language)
      ∧ (c.buildScopes table policy now language (scope :: scopes)).collector = c := by
  simp [buildScopes, buildReportSet_of_not_admits h]

/-- The sets of both scopes. -/
theorem buildAll_of_admits (h : c.Admits table language) (policy : EmptyReportPolicy)
    (now : Timestamp) :
    (c.buildAll table policy now language).collector = c.closed
      ∧ (c.buildAll table policy now language).result
        = match c.firstEmpty? policy now language TestScope.all with
          | some scope => .error (.emptyReportSet language scope)
          | none => .ok (TestScope.all.map (c.reportSet now language)) :=
  buildScopes_of_admits policy now TestScope.all h

/-- The analyzer outputs that the buckets hold. -/
def analyzerSet (c : Collector) : AnalyzerReportSet :=
  ⟨c.snapshot .protobuf none, c.roslynReports⟩

theorem analyzerReports_eq (c : Collector) :
    c.analyzerReports.result = c.analyzerSet
      ∧ c.analyzerReports.collector = c.closed := by
  have hresult : c.analyzerReports.result = c.sealUp.collector.analyzerSet := rfl
  have hcollector : c.analyzerReports.collector = c.sealUp.collector := rfl
  rw [hresult, hcollector, sealUp_collector]
  exact ⟨rfl, rfl⟩

end Collector

end CoverageRegistry
