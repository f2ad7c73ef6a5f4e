import CoverageRegistry.Proofs.Collector.Operation

/-!
# The outcomes of building a report set

A reader that asks for a report set is answered in one of four ways. The language
checks refuse an unknown language first and a collector of another language second,
and a refused reader leaves the collector alone. A reader that passes them seals it,
and is refused then only by a strict policy that finds no report in the scope.
`Collector.report_set_outcome` says when each of these is the answer.
-/

namespace CoverageRegistry

theorem CoverageTool.mem_all (tool : CoverageTool) : tool ∈ CoverageTool.all := by
  cases tool <;> decide

namespace Collector

variable {c : Collector} {table : LanguageTable} {language : String}

/-! ## The language checks -/

theorem boundElsewhere?_eq_some_iff {bound : String} :
    c.boundElsewhere? language = some bound
      ↔ c.language = some bound ∧ bound ≠ language := by
  simp [boundElsewhere?, Option.filter_eq_some_iff]

theorem buildReportSet_of_not_contains (h : table.contains language = false)
    (policy : EmptyReportPolicy) (now : Timestamp) (scope : TestScope) :
    c.buildReportSet table policy now language scope
      = ⟨.error (.unknownLanguage language), c, []⟩ := by
  rw [buildReportSet_of_not_admits fun hadmits => by simp [hadmits.1] at h]
  simp [refusal, h]

theorem buildReportSet_of_boundElsewhere (h : table.contains language = true)
    {bound : String} (hbound : c.boundElsewhere? language = some bound)
    (policy : EmptyReportPolicy) (now : Timestamp) (scope : TestScope) :
    c.buildReportSet table policy now language scope
      = ⟨.error (.languageMismatch bound language), c, []⟩ := by
  rw [buildReportSet_of_not_admits fun hadmits => by simp [hadmits.2] at hbound]
  simp [refusal, h, hbound]

/-! ## The report set that is read -/

theorem reportSet_eq (c : Collector) (now : Timestamp) (language : String)
    (scope : TestScope) :
    c.reportSet now language scope
      = ⟨language, scope, CoverageTool.all.map fun tool =>
          ⟨tool, (CoverageKeys.derive language scope).get tool,
            c.snapshot tool.reportKind (some scope)⟩, now⟩ := by
  simp [reportSet, toolReports, CoverageConfiguration.keys, CoverageKeys.toList]

/-- A report set is empty when the buckets of all tools in its scope are: paths of
the other scope and outputs of analyzers do not count. -/
theorem isEmpty_reportSet (c : Collector) (now : Timestamp) (language : String)
    (scope : TestScope) :
    (c.reportSet now language scope).isEmpty = true
      ↔ ∀ tool : CoverageTool, c.snapshot tool.reportKind (some scope) = [] := by
  simp [reportSet_eq, CoverageReportSet.isEmpty, CoverageTool.mem_all]

/-- **The outcome of a read.** A report set is refused for an unknown language exactly
when the table does not have it, and otherwise for a mismatch exactly when the
collector is bound to another language; both leave the collector as it was. Every
other read leaves it sealed and changes nothing else. Such a read fails exactly when
the policy is strict and the buckets of all tools in the scope are empty; otherwise
it answers the tools in order, each with its key in the table and with what its
bucket holds. -/
theorem report_set_outcome (c : Collector) (table : LanguageTable)
    (policy : EmptyReportPolicy) (now : Timestamp) (language : String)
    (scope : TestScope) :
    let answer := c.buildReportSet table policy now language scope
    let known := table.contains language = true
    let boundTo := fun other => c.language = some other ∧ other ≠ language
    let empty := ∀ tool : CoverageTool, c.snapshot tool.reportKind (some scope) = []
    (answer.result = .error (.unknownLanguage language) ↔ ¬ known)
      ∧ (∀ other, answer.result = .error (.languageMismatch other language)
        ↔ known ∧ boundTo other)
      ∧ (¬ known ∨ (∃ other, boundTo other) → answer.collector = c)
      ∧ (known → (¬ ∃ other, boundTo other) →
        answer.collector = { c with phase := .sealed }
          ∧ (answer.result = .error (.emptyReportSet language scope)
            ↔ policy = .strict ∧ empty)
          ∧ (¬ (policy = .strict ∧ empty) →
            ∃ keys, table.resolveKeys language scope = .ok keys
              ∧ answer.result = .ok ⟨language, scope, CoverageTool.all.map fun tool =>
                  ⟨tool, keys.get tool, c.snapshot tool.reportKind (some scope)⟩,
                now⟩)) := by
  intro answer known boundTo empty
  cases hknown : table.contains language with
  | false =>
    have hanswer : answer = ⟨.error (.unknownLanguage language), c, []⟩ :=
      buildReportSet_of_not_contains hknown policy now scope
    simp [hanswer, known, hknown]
  | true =>
    cases hbound : c.boundElsewhere? language with
    | some bound =>
      have hanswer : answer = ⟨.error (.languageMismatch bound language), c, []⟩ :=
        buildReportSet_of_boundElsewhere hknown hbound policy now scope
      obtain ⟨hlanguage, hne⟩ := boundElsewhere?_eq_some_iff.mp hbound
      have hother : ∀ other, boundTo other ↔ bound = other := by
        intro other
        simp only [boundTo, hlanguage, Option.some.injEq]
        exact ⟨And.left, fun h => ⟨h, h ▸ hne⟩⟩
      simp [hanswer, known, hknown, hother]
    | none =>
      obtain ⟨hcollector, hresult⟩ := buildReportSet_of_admits ⟨hknown, hbound⟩ policy now
        scope
      have hfree : ∀ other, ¬ boundTo other := by
        intro other hother
        rw [boundElsewhere?_eq_some_iff.mpr hother] at hbound
        cases hbound
      have hempty : ((c.reportSet now language scope).isEmpty && policy = .strict) = true
          ↔ policy = .strict ∧ empty := by
        rw [Bool.and_eq_true, isEmpty_reportSet, decide_eq_true_iff, and_comm]
      have hclosed : answer.collector = { c with phase := .sealed } := hcollector
      have hkeys := LanguageTable.resolveKeys_of_contains hknown scope
      by_cases hrefused : policy = .strict ∧ empty
      · have hanswer : answer.result = .error (.emptyReportSet language scope) := by
          rw [hresult, if_pos (hempty.mpr hrefused)]
        simp [hanswer, hclosed, known, hknown, hfree, hrefused]
      · have hanswer : answer.result = .ok (c.reportSet now language scope) := by
          rw [hresult, if_neg (mt hempty.mp hrefused)]
        rw [reportSet_eq] at hanswer
        simp [hanswer, hclosed, known, hknown, hfree, hrefused, hkeys]

/-- A collector with reports of integration tests and outputs of an analyzer has
nothing for a strict reader of unit tests, and is sealed by it all the same. -/
theorem report_set_outcome_other_scope :
    let c := (fresh (some "cs")).after
      [.contribute (.paths .dotcover (some .integration) [.ofText "/p/a.html"]),
        .contribute (.protobufDirs [.ofText "/p/obj/output-cs"])]
    let read := fun language scope =>
      c.buildReportSet .builtin .strict ⟨0, 0⟩ language scope
    (read "cobol" .unit).result = .error (.unknownLanguage "cobol")
      ∧ (read "vbnet" .unit).result = .error (.languageMismatch "cs" "vbnet")
      ∧ (read "vbnet" .unit).collector = c
      ∧ (read "cs" .unit).result = .error (.emptyReportSet "cs" .unit)
      ∧ (read "cs" .unit).collector = { c with phase := .sealed }
      ∧ ∃ set, (read "cs" .integration).result = .ok set
        ∧ set.paths .dotcover = [.ofText "/p/a.html"] := by
  intro c read
  have outcome := report_set_outcome c .builtin .strict ⟨0, 0⟩
  have hbound : ∃ other, c.language = some other ∧ other ≠ "vbnet" := ⟨"cs", by decide⟩
  have hfree : ¬ ∃ other, c.language = some other ∧ other ≠ "cs" := by
    rintro ⟨other, hother, hne⟩
    exact hne (Option.some.inj hother).symm
  have hunit : ∀ tool : CoverageTool, c.snapshot tool.reportKind (some .unit) = [] := by
    intro tool
    cases tool <;> decide +kernel
  have hintegration : c.snapshot .dotcover (some .integration) = [.ofText "/p/a.html"] := by
    decide +kernel
  obtain ⟨-, hmismatch, hkept, -⟩ := outcome "vbnet" .unit
  obtain ⟨-, -, -, hread⟩ := outcome "cs" .unit
  obtain ⟨hclosed, hempty, -⟩ := hread (by decide) hfree
  obtain ⟨-, -, -, hread⟩ := outcome "cs" .integration
  obtain ⟨-, -, hset⟩ := hread (by decide) hfree
  obtain ⟨keys, -, hset⟩ := hset fun hnone => by
    have := hnone.2 .dotcover
    simp [CoverageTool.reportKind, hintegration] at this
  refine ⟨(outcome "cobol" .unit).1.mpr (by decide),
    (hmismatch "cs").mpr ⟨by decide, rfl, by decide⟩, hkept (.inr hbound),
    hempty.mpr ⟨rfl, hunit⟩, hclosed, _, hset, ?_⟩
  simpa [CoverageReportSet.paths, CoverageTool.all, CoverageTool.reportKind]
    using hintegration

end Collector

end CoverageRegistry
