import CoverageRegistry.Proofs.Run.Build
import CoverageRegistry.Proofs.Run.Report

/-!
# Conservation of paths

Paths are counted three times on their way through a run: by the sensors that report
how many were new, by the collectors, and in the final report. `paths_conserved` says
that the three counts agree, over any number of executions, also where some of the
collectors are sealed in between.
-/

namespace CoverageRegistry

/-! ## What the reports of a collector count -/

namespace Collector

variable (c : Collector)

/-- The paths of a scope, counted tool by tool. -/
theorem totalPaths_reportSet (now : Timestamp) (language : String) (scope : TestScope) :
    (c.reportSet now language scope).totalPaths
      = (CoverageTool.all.map fun tool =>
          (c.entries tool.reportKind (some scope)).length).sum := by
  simp [CoverageReportSet.totalPaths, reportSet, toolReports, snapshot,
    List.length_flatMap, CoverageConfiguration.keys, CoverageKeys.toList,
    Function.comp_def]

/-- The buckets are those of the tools in both scopes, and the two of the analyzer. -/
theorem sumOfBuckets_eq :
    c.sumOfBuckets
      = (TestScope.all.map fun scope => (CoverageTool.all.map fun tool =>
            (c.entries tool.reportKind (some scope)).length).sum).sum
        + ((c.entries .protobuf none).length + (c.entries .roslyn none).length) := by
  have hnone : ∀ key : BucketKey, ¬ key.Admissible → c.entries key.kind key.scope = [] := by
    intro key hkey
    rw [entries_eq, if_neg hkey]
  simp only [sumOfBuckets, BucketKey.all, ReportKind.all, TestScope.all, CoverageTool.all,
    CoverageTool.reportKind, List.flatMap_cons, List.flatMap_nil, List.cons_append,
    List.nil_append, List.map_cons, List.map_nil, List.sum_cons, List.sum_nil]
  rw [hnone ⟨.ncover3, none⟩ (by decide), hnone ⟨.opencover, none⟩ (by decide),
    hnone ⟨.dotcover, none⟩ (by decide), hnone ⟨.vsXml, none⟩ (by decide),
    hnone ⟨.protobuf, some .unit⟩ (by decide),
    hnone ⟨.protobuf, some .integration⟩ (by decide),
    hnone ⟨.roslyn, some .unit⟩ (by decide),
    hnone ⟨.roslyn, some .integration⟩ (by decide)]
  simp only [List.length_nil]
  omega

/-- Report files that all have modules are all read back. -/
theorem length_roslynReports
    (h : ∀ entry ∈ c.entries .roslyn none, entry.module.isSome = true) :
    c.roslynReports.length = (c.entries .roslyn none).length := by
  rw [roslynReports, List.length_filterMap_eq_countP, List.countP_eq_length]
  intro entry hentry
  rw [Option.isSome_map]
  exact h entry hentry

/-- What the final report counts for a language is the total of its collector. -/
theorem Sound.reported {c : Collector} {bound : String} (h : c.Sound bound)
    (now : Timestamp) (language : String) :
    ((TestScope.all.map (c.reportSet now language)).map
          CoverageReportSet.totalPaths).sum
        + (c.analyzerSet.protobufDirs.length + c.analyzerSet.roslynReports.length)
      = c.totalPaths := by
  have hscopes : (TestScope.all.map (c.reportSet now language)).map
        CoverageReportSet.totalPaths
      = TestScope.all.map fun scope => (CoverageTool.all.map fun tool =>
          (c.entries tool.reportKind (some scope)).length).sum := by
    rw [List.map_map]
    exact List.map_congr_left fun scope _ => c.totalPaths_reportSet now language scope
  have hdirs : c.analyzerSet.protobufDirs.length
      = (c.entries .protobuf none).length := List.length_map _
  have hfiles : c.analyzerSet.roslynReports.length
      = (c.entries .roslyn none).length := c.length_roslynReports h.tagged
  rw [h.total, sumOfBuckets_eq, hscopes, hdirs, hfiles]

end Collector

/-! ## Finishing a lenient run -/

/-- The number of paths in a final report: those of its coverage sets, and the outputs
of its analyzers. -/
def RunReport.totalPaths (report : RunReport) : Nat :=
  (report.coverage.map CoverageReportSet.totalPaths).sum
    + (report.analyzer.values.map fun outputs =>
        outputs.protobufDirs.length + outputs.roslynReports.length).sum

namespace AnalysisRun

/-- The end of a lenient run. -/
theorem finish_lenient {run : AnalysisRun} (hpolicy : run.policy = .lenient)
    (outside : Surroundings) {view : String → Collector} {languages : List String}
    (h : ∀ language ∈ languages, (view language).Admits run.table language
      ∧ run.collectors.get? language = some (view language)) :
    (run.finish outside languages).result
      = .ok ⟨run.runId, languages.flatMap fun language =>
            TestScope.all.map ((view language).reportSet outside.now language),
          outputsOf view languages .empty, run.reports⟩ := by
  refine (finish_accepted fun language hlanguage => ?_).1
  obtain ⟨hadmits, hcollector⟩ := h language hlanguage
  exact ⟨accepts_lenient hpolicy hadmits, hcollector⟩

/-- The report of a lenient run counts language by language. -/
theorem totalPaths_report (runId : String) (now : Timestamp) (view : String → Collector)
    {languages : List String} (hnodup : languages.Nodup) (records : List SensorReport) :
    (RunReport.mk runId
        (languages.flatMap fun language =>
          TestScope.all.map ((view language).reportSet now language))
        (outputsOf view languages .empty) records).totalPaths
      = (languages.map fun language =>
          ((TestScope.all.map ((view language).reportSet now language)).map
              CoverageReportSet.totalPaths).sum
            + ((view language).analyzerSet.protobufDirs.length
              + (view language).analyzerSet.roslynReports.length)).sum := by
  have houtputs := TextMap.sum_foldl_insert
    (fun outputs : AnalyzerReportSet =>
      outputs.protobufDirs.length + outputs.roslynReports.length)
    (fun language => (view language).analyzerSet) (m := .empty) hnodup fun _ _ => rfl
  rw [RunReport.totalPaths, outputsOf, houtputs, List.sum_map_add, List.map_flatMap,
    List.flatMap_def, List.sum_flatten, List.map_map]
  simp [TextMap.values, TextMap.empty, Function.comp_def]

end AnalysisRun

/-! ## Steps of a run -/

/-- What happens to a run before it is finished: it executes sensors, or somebody
performs an operation on the collector of a language. -/
inductive RunStep where
  | execute (outside : Surroundings) (modules : List Module) (sensors : List Sensor)
  | operate (language : String) (operation : Operation)

/-- The sensors are those of registered languages, and nobody else contributes. -/
def RunStep.Permitted (table : LanguageTable) : RunStep → Prop
  | execute _ _ sensors => ∀ sensor ∈ sensors, sensor.Registered table
  | operate _ operation => ∀ x, operation ≠ .contribute x

namespace AnalysisRun

/-- The run after a step. -/
def step (run : AnalysisRun) : RunStep → AnalysisRun
  | .execute outside modules sensors => (run.execute outside modules sensors).run
  | .operate language operation =>
      match run.collectors.get? language with
      | none => run
      | some c =>
          { run with collectors :=
              run.collectors.insert language (operation.perform c).collector }

/-- The run after some steps. -/
def after (run : AnalysisRun) (steps : List RunStep) : AnalysisRun :=
  steps.foldl step run

/-- The table and the policy of a run stay. -/
theorem unchanged_after (steps : List RunStep) :
    ∀ run : AnalysisRun,
      (run.after steps).table = run.table ∧ (run.after steps).policy = run.policy := by
  induction steps with
  | nil => intro run; exact ⟨rfl, rfl⟩
  | cons first steps ih =>
    intro run
    have hfirst : (run.step first).table = run.table
        ∧ (run.step first).policy = run.policy := by
      cases first with
      | execute outside modules sensors => exact ⟨rfl, rfl⟩
      | operate language operation =>
        rw [step]
        split <;> exact ⟨rfl, rfl⟩
    obtain ⟨htable, hpolicy⟩ := ih (run.step first)
    exact ⟨htable.trans hfirst.1, hpolicy.trans hfirst.2⟩

/-- The numbers of new paths on record, added up. -/
def contributed (run : AnalysisRun) : Nat :=
  (run.reports.map fun record => record.outcome.contributed).sum

/-- A run whose records account for what its collectors hold. -/
structure Balanced (table : LanguageTable) (run : AnalysisRun) : Prop where
  table_eq : run.table = table
  sound : run.collectors.Sound table
  balance : run.contributed = run.collectors.totalPaths

variable {table : LanguageTable} {run : AnalysisRun}

theorem balanced_start (runId : String) (table : LanguageTable)
    (policy : EmptyReportPolicy) : (start runId table policy).Balanced table := by
  refine ⟨rfl, Collectors.sound_start runId table policy, ?_⟩
  have hfresh : ∀ n ∈ (start runId table policy).collectors.values.map
      Collector.totalPaths, n = 0 := by
    intro n hn
    obtain ⟨c, hc, rfl⟩ := List.mem_map.mp hn
    obtain ⟨entry, hentry, rfl⟩ := List.mem_map.mp hc
    obtain ⟨name, -, rfl⟩ := List.mem_map.mp hentry
    rfl
  rw [Collectors.totalPaths_eq, List.sum_eq_zero hfresh]
  rfl

/-- An execution records what its sensors report. -/
theorem Balanced.execute (h : run.Balanced table) (outside : Surroundings)
    (modules : List Module) {sensors : List Sensor}
    (hsensors : ∀ sensor ∈ sensors, sensor.Registered table) :
    (run.execute outside modules sensors).run.Balanced table := by
  obtain ⟨hsound, htotal⟩ := execute_conserves h.sound outside modules hsensors
  refine ⟨h.table_eq, hsound, ?_⟩
  have hrecorded : (run.execute outside modules sensors).run.contributed
      = run.contributed + ((run.execute outside modules sensors).reports.map
          fun record => record.outcome.contributed).sum := by
    rw [contributed, contributed, ← List.sum_append, ← List.map_append]
    rfl
  rw [hrecorded, h.balance, htotal]

/-- Reading or sealing a collector takes nothing from it. -/
theorem Balanced.operate (h : run.Balanced table) (language : String)
    {operation : Operation} (hoperation : ∀ x, operation ≠ .contribute x) :
    (run.step (.operate language operation)).Balanced table := by
  rw [step]
  cases hc : run.collectors.get? language with
  | none => exact h
  | some c =>
    have hsound : (operation.perform c).collector.Sound language :=
      (h.sound.sound hc).perform fun x hx => absurd hx (hoperation x)
    refine ⟨h.table_eq, h.sound.insert hc hsound, h.balance.trans ?_⟩
    have htotal : (operation.perform c).collector.totalPaths = c.totalPaths := by
      rw [Collector.totalPaths, Collector.allEntries,
        Operation.buckets_perform hoperation]
      rfl
    have hinsert := Collectors.totalPaths_insert hc (operation.perform c).collector
    rw [htotal] at hinsert
    exact (Nat.add_right_cancel hinsert).symm

theorem Balanced.after {steps : List RunStep} :
    ∀ {run : AnalysisRun}, run.Balanced table →
      (∀ step ∈ steps, step.Permitted table) → (run.after steps).Balanced table := by
  induction steps with
  | nil => intro run h _; exact h
  | cons first steps ih =>
    intro run h hsteps
    have hfirst : (run.step first).Balanced table := by
      have hpermitted := hsteps first List.mem_cons_self
      cases first with
      | execute outside modules sensors => exact h.execute outside modules hpermitted
      | operate language operation => exact h.operate language hpermitted
    exact ih hfirst fun other hother => hsteps other (List.mem_cons_of_mem _ hother)

/-! ## The final report -/

/-- What a lenient run reports for all its languages are the paths on record. -/
theorem Balanced.finish (h : run.Balanced table) (hpolicy : run.policy = .lenient)
    (outside : Surroundings) {languages : List String}
    (hall : languages.Perm (table.infos.map LanguageInfo.key)) :
    ∃ report, (run.finish outside languages).result = .ok report
      ∧ report.totalPaths = run.contributed := by
  have hkeys : languages.Perm run.collectors.keys := by
    rw [h.sound.keys]
    refine hall.trans (.of_eq ?_)
    rw [LanguageTable.infos, List.map_map]
    rfl
  have hregistered : ∀ language ∈ languages, table.contains language = true := by
    intro language hlanguage
    rw [← h.sound.contains_iff, TextMap.contains_iff_mem_keys]
    exact hkeys.mem_iff.mp hlanguage
  have hcollector : ∀ language ∈ languages,
      run.collectors.get? language = some (run.collectors.view language) :=
    fun language hlanguage => h.sound.get?_eq_view (hregistered language hlanguage)
  have hadmits : ∀ language ∈ languages,
      (run.collectors.view language).Admits run.table language := by
    intro language hlanguage
    rw [h.table_eq]
    exact (h.sound.sound (hcollector language hlanguage)).admits
      (hregistered language hlanguage)
  refine ⟨_, finish_lenient hpolicy outside fun language hlanguage =>
    ⟨hadmits language hlanguage, hcollector language hlanguage⟩, ?_⟩
  -- each language is reported once, with the total of its collector
  have hnodup : languages.Nodup := hkeys.nodup_iff.mpr run.collectors.nodup_keys
  rw [totalPaths_report _ _ _ hnodup, List.map_congr_left fun language hlanguage =>
    (h.sound.sound (hcollector language hlanguage)).reported outside.now language,
    h.balance, h.sound.totalPaths_eq_sum]
  exact (hkeys.map _).sum_eq

/-- **Paths are conserved over a run.** A fresh run goes through any steps: it executes
sensors of registered languages on any modules, and others read and seal its
collectors, but contribute nothing. Then the numbers of new paths that its records
tell add up to the totals of its collectors. If the run is finished leniently with
every language listed once, it succeeds, and the coverage sets and analyzer outputs
of its report hold as many paths. -/
theorem paths_conserved {table : LanguageTable} {steps : List RunStep}
    (hsteps : ∀ step ∈ steps, step.Permitted table) (runId : String)
    (policy : EmptyReportPolicy) :
    let run := (start runId table policy).after steps
    let contributed := (run.reports.map fun record => record.outcome.contributed).sum
    contributed = (run.collectors.values.map Collector.totalPaths).sum
      ∧ ∀ (outside : Surroundings) (languages : List String),
        languages.Perm (table.infos.map LanguageInfo.key) →
          ∃ report,
            (({ run with policy := .lenient } : AnalysisRun).finish outside
                languages).result = .ok report
              ∧ contributed = (report.coverage.map CoverageReportSet.totalPaths).sum
                + (report.analyzer.values.map fun outputs =>
                    outputs.protobufDirs.length + outputs.roslynReports.length).sum := by
  intro run contributed
  have hrun : run.Balanced table := (balanced_start runId table policy).after hsteps
  have hlenient : ({ run with policy := .lenient } : AnalysisRun).Balanced table :=
    ⟨hrun.table_eq, hrun.sound, hrun.balance⟩
  refine ⟨hrun.balance.trans (Collectors.totalPaths_eq _), fun outside languages hall => ?_⟩
  obtain ⟨report, hresult, htotal⟩ := hlenient.finish rfl outside hall
  exact ⟨report, hresult, htotal.symm⟩

/-- Two executions, and the collector sealed between them: the sensors of the second
one are refused and report nothing. -/
theorem paths_conserved_sealed_between :
    let outside : Surroundings := ⟨fun _ => false, ⟨0, 0⟩, 0⟩
    let module (key files : String) : Module :=
      ⟨key, .ofText "/p", .ofPairs [("sonar.cs.opencover.reportsPaths", files)], ["cs"]⟩
    ∃ sensors, Sensor.forLanguage .builtin "cs" = .ok sensors ∧
      let steps : List RunStep :=
        [.execute outside [module "app" "a.xml,b.xml", module "web" "./b.xml"] sensors,
          .operate "cs" .sealUp, .execute outside [module "lib" "c.xml"] sensors]
      let run := (start "run" .builtin .strict).after steps
      (run.reports.map fun record => record.outcome.contributed).sum = 2
        ∧ ∃ report,
          (({ run with policy := .lenient } : AnalysisRun).finish outside
              ["cs", "vbnet"]).result = .ok report
            ∧ 2 = (report.coverage.map CoverageReportSet.totalPaths).sum
              + (report.analyzer.values.map fun outputs =>
                  outputs.protobufDirs.length + outputs.roslynReports.length).sum := by
  intro outside module
  have hlanguage : LanguageTable.builtin.language "cs" = .ok ⟨"cs", "C#"⟩ := by decide
  refine ⟨_, BuiltIn.forLanguage_eq hlanguage, ?_⟩
  intro steps run
  have hsteps : ∀ step ∈ steps, step.Permitted .builtin := by
    have hregistered : ∀ sensor ∈ BuiltIn.all.map (BuiltIn.sensor ⟨"cs", "C#"⟩),
        sensor.Registered .builtin := fun sensor hsensor =>
      ⟨"cs", _, BuiltIn.forLanguage_eq hlanguage, hsensor⟩
    intro step hstep
    simp only [steps, List.mem_cons, List.not_mem_nil, or_false] at hstep
    rcases hstep with rfl | rfl | rfl
    · exact hregistered
    · intro x hx
      cases hx
    · exact hregistered
  obtain ⟨hcontributed, hreport⟩ := paths_conserved hsteps "run" .strict
  have hcount : (run.collectors.values.map Collector.totalPaths).sum = 2 := by
    decide +kernel
  rw [hcount] at hcontributed
  refine ⟨hcontributed, ?_⟩
  have hfinished := hreport outside ["cs", "vbnet"] (by decide)
  rw [hcontributed] at hfinished
  exact hfinished

end AnalysisRun

end CoverageRegistry
