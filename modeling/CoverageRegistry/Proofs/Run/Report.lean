import CoverageRegistry.Proofs.Run.Sound

/-!
# From the settings of a module to the report of a run

A run that executes the built-in sensors of a language on a module fills the
collector of the language with their contributions, in whatever order the sensors
stand (`AnalysisRun.act_builtIns`). Reading it back gives the properties of the
module, each in the bucket of its tool and scope. The main statement is
`settings_in_report_out`.
-/

namespace CoverageRegistry

/-! ## What the settings ask for -/

namespace Module

/-- The report set that the settings of a module ask for. -/
def reportSet (module : Module) (language : String) (scope : TestScope)
    (keys : CoverageKeys) (now : Timestamp) : CoverageReportSet :=
  ⟨language, scope,
    CoverageTool.all.map fun tool =>
      ⟨tool, keys.get tool, (module.normalized (keys.get tool)).eraseDups⟩,
    now⟩

/-- The analyzer outputs that the settings of a module ask for. -/
def analyzerSet (module : Module) (isDirectory : Path → Bool) (language : LanguageInfo) :
    AnalyzerReportSet :=
  ⟨(SensorContext.outputDirs ⟨module, isDirectory⟩ language).eraseDups,
    (module.normalized language.roslynReportPathsKey).eraseDups.map
      fun path => ⟨module.key, path⟩⟩

end Module

theorem canonical_of_isNormal {paths : List Path} (h : ∀ p ∈ paths, p.IsNormal) :
    Canonical paths :=
  fun p hp q hq hsame => (h p hp).eq_of_sameAs (h q hq) hsame

theorem canonical_normalized (module : Module) (property : String) :
    Canonical (module.normalized property) :=
  canonical_of_isNormal fun _ hp => isNormal_of_mem_normalized hp

theorem canonical_outputDirs (context : SensorContext) (language : LanguageInfo) :
    Canonical (context.outputDirs language) :=
  canonical_of_isNormal fun _ hp => isNormal_of_mem_outputDirs hp

/-! ## Executing the sensors -/

namespace AnalysisRun

/-- The built-in sensors all finish, and leave the collector of their language after
their contributions. -/
theorem act_builtIns {language : LanguageInfo} {module : Module}
    (hmodule : language.key ∈ module.languages) (isDirectory : Path → Bool)
    (plans : List BuiltIn) {collectors : Collectors} {c : Collector}
    (hc : collectors.get? language.key = some c) (h : c.Ready) :
    let done := act isDirectory (plans.map fun b => (module, b.sensor language)) collectors
    (∀ execution ∈ done.executions, execution.status = .finished)
      ∧ done.collectors.get? language.key
        = some (c.contributed (plans.flatMap
            (BuiltIn.contributions language ⟨module, isDirectory⟩))) := by
  -- all tasks are of the one language, and apply
  let tasks : List Task := plans.map fun b => ⟨module, language, b⟩
  have happlies : ∀ t ∈ tasks, t.language = language ∧ t.applies = true
      ∧ t.contributions isDirectory
        = t.plan.contributions language ⟨module, isDirectory⟩ := by
    intro t ht
    obtain ⟨b, -, rfl⟩ := List.mem_map.mp ht
    have hdeclared : module.languages.contains language.key = true :=
      List.contains_iff_mem.mpr hmodule
    exact ⟨rfl, hdeclared, if_pos hdeclared⟩
  have hpairs : plans.map (fun b => (module, b.sensor language))
      = tasks.map Task.pair := by
    rw [List.map_map]
    rfl
  have hown : tasksOf language.key tasks = tasks := by
    refine List.filter_eq_self.mpr fun t ht => ?_
    rw [(happlies t ht).1]
    exact decide_eq_true rfl
  have hcontributions : contributionsOf isDirectory tasks
      = plans.flatMap (BuiltIn.contributions language ⟨module, isDirectory⟩) := by
    rw [contributionsOf, List.flatMap_congr fun t ht => (happlies t ht).2.2,
      List.flatMap_map]
  obtain ⟨hcollectors, hexecutions⟩ := @act_open isDirectory tasks collectors
    fun t ht => ⟨c, (happlies t ht).1 ▸ hc, h⟩
  rw [hpairs]
  refine ⟨fun execution hexecution => ?_, ?_⟩
  · obtain ⟨t, ht, -, hverdict⟩ := hexecutions execution hexecution
    rw [Task.verdict, if_pos (happlies t ht).2.1] at hverdict
    exact congrArg Prod.fst hverdict
  · rw [hcollectors hc h, hown, hcontributions]

end AnalysisRun

/-! ## Reading the collector back -/

/-- Items with one module, the first for each place: those of the paths without
repetitions. -/
theorem firsts_items {paths : List Path} (h : Canonical paths)
    (module : Option ModuleKey) :
    firsts Item.path (paths.map fun path => ⟨path, module⟩)
      = paths.eraseDups.map fun path => ⟨path, module⟩ := by
  have hmap : (firsts id paths).map (fun path => (⟨path, module⟩ : Item))
      = firsts Item.path (paths.map fun path => ⟨path, module⟩) :=
    map_firsts Item.path (fun path => ⟨path, module⟩) paths
  rw [← hmap, firsts_eq_eraseDups h]

section Filled

variable {language : LanguageInfo} {context : SensorContext} {plans : List BuiltIn}

/-- The collector of a language after its sensors. -/
def BuiltIn.filled (language : LanguageInfo) (context : SensorContext)
    (plans : List BuiltIn) : Collector :=
  (Collector.forLanguage language.key).contributed
    (plans.flatMap (contributions language context))

open BuiltIn

/-- A bucket holds what its own sensor offered to it. -/
theorem entries_filled (hplans : plans.Perm all) {kind : ReportKind}
    {scope : Option TestScope} (hkey : (BucketKey.mk kind scope).Admissible)
    {paths : List Path} {module : Option ModuleKey} (hpaths : Canonical paths)
    (hoffers : (owner ⟨kind, scope⟩).offers language context ⟨kind, scope⟩
      = paths.map fun path => ⟨path, module⟩) :
    (filled language context plans).entries kind scope
      = paths.eraseDups.map fun path => ⟨path, module, kind, scope⟩ := by
  have howner : owner ⟨kind, scope⟩ ∈ plans := by
    rw [hplans.mem_iff]
    rcases scope with _ | _ | _ <;> simp [owner, all, TestScope.all]
  -- the offered items are those of all sensors, so those of the bucket's own
  have hitems : (plans.flatMap (contributions language context)).flatMap
      (Contribution.offers ⟨kind, scope⟩) = paths.map fun path => ⟨path, module⟩ := by
    rw [List.flatMap_assoc, ← hoffers]
    exact flatMap_offers language context _ (hplans.nodup_iff.mpr nodup_all) howner
  have hentries := Collector.entries_contributed_fresh (some language.key)
    (plans.flatMap (contributions language context)) kind scope
  rw [if_pos hkey, hitems, firsts_items hpaths, List.map_map] at hentries
  exact hentries

theorem snapshot_filled (hplans : plans.Perm all) {kind : ReportKind}
    {scope : Option TestScope} (hkey : (BucketKey.mk kind scope).Admissible)
    {paths : List Path} {module : Option ModuleKey} (hpaths : Canonical paths)
    (hoffers : (owner ⟨kind, scope⟩).offers language context ⟨kind, scope⟩
      = paths.map fun path => ⟨path, module⟩) :
    (filled language context plans).snapshot kind scope = paths.eraseDups := by
  rw [Collector.snapshot, entries_filled hplans hkey hpaths hoffers, List.map_map]
  exact List.map_id _

/-- The report set of the filled collector is the one that the settings ask for. -/
theorem reportSet_filled (hplans : plans.Perm all) (scope : TestScope)
    (now : Timestamp) :
    (filled language context plans).reportSet now language.key scope
      = context.module.reportSet language.key scope (.derive language.key scope) now := by
  have hsnapshot : ∀ tool : CoverageTool,
      (filled language context plans).snapshot tool.reportKind (some scope)
        = (context.module.normalized (coverageKey language.key scope tool)).eraseDups :=
    fun tool => snapshot_filled hplans (BucketKey.admissible_coverage tool scope)
      (canonical_normalized _ _)
      (offers_coverage language context tool scope)
  simp only [Collector.reportSet, Collector.toolReports, Module.reportSet,
    CoverageConfiguration.keys, CoverageKeys.toList, List.map_map, Function.comp_def,
    hsnapshot, CoverageKeys.get_derive]

/-- So are the analyzer outputs. -/
theorem analyzerSet_filled (hplans : plans.Perm all) :
    (filled language context plans).analyzerSet
      = context.module.analyzerSet context.isDirectory language := by
  have hdirs := snapshot_filled hplans BucketKey.admissible_protobuf
    (canonical_outputDirs context language) (offers_protobuf language context)
  have hreports := entries_filled hplans BucketKey.admissible_roslyn
    (canonical_normalized context.module language.roslynReportPathsKey)
    (offers_roslyn language context)
  rw [Collector.analyzerSet, hdirs, Collector.roslynReports, hreports,
    List.filterMap_map]
  simp only [Module.analyzerSet, Function.comp_def, Option.map_some,
    List.filterMap_eq_map']

end Filled

/-! ## Finishing the run -/

namespace AnalysisRun

/-- The end of a run, for one language whose collector passes the language checks. -/
theorem finish_result {run : AnalysisRun} {language : String} {c : Collector}
    (hc : run.collectors.get? language = some c) (h : c.Admits run.table language)
    (after : Surroundings) {sets : List CoverageReportSet} {analyzer : AnalyzerReportSet}
    (hsets : TestScope.all.map (c.reportSet after.now language) = sets)
    (hanalyzer : c.analyzerSet = analyzer) :
    let report : RunReport :=
      ⟨run.runId, sets, TextMap.empty.insert language analyzer, run.reports⟩
    (run.finish after [language]).result
      = match run.policy with
        | .lenient => .ok report
        | .strict =>
            match sets.find? CoverageReportSet.isEmpty with
            | some set => .error (.emptyReportSet language set.scope)
            | none => .ok report := by
  have hfind : run.collectors.find language = .ok c := by
    rw [Collectors.find, hc]
  obtain ⟨hcollector, hresult⟩ := Collector.buildAll_of_admits h run.policy after.now
  -- the report sets are read first, so the analyzer outputs come from a closed one
  have hclosed : c.closed.analyzerReports.result = analyzer :=
    c.closed.analyzerReports_eq.1.trans hanalyzer
  cases hpolicy : run.policy with
  | lenient =>
    rw [hpolicy, Collector.firstEmpty?_lenient, hsets] at hresult
    rw [hpolicy] at hcollector
    simp only [finish, build, hfind, hpolicy, hresult, hcollector, hclosed,
      List.nil_append]
  | strict =>
    rw [hpolicy, Collector.firstEmpty?_strict, hsets] at hresult
    rw [hpolicy] at hcollector
    cases hempty : sets.find? CoverageReportSet.isEmpty with
    | some set =>
      rw [hempty] at hresult
      simp only [finish, build, hfind, hpolicy, hresult, Option.map_some]
    | none =>
      rw [hempty] at hresult
      simp only [finish, build, hfind, hpolicy, hresult, hcollector, hclosed,
        List.nil_append, Option.map_none]

/-- A fresh run has a fresh collector for every registered language. -/
theorem get?_start {table : LanguageTable} {language : String}
    (h : table.contains language = true) (runId : String) (policy : EmptyReportPolicy) :
    (start runId table policy).collectors.get? language
      = some (.forLanguage language) := by
  obtain ⟨name, hname⟩ := Option.isSome_iff_exists.mp h
  show (table.names.map fun key _ => Collector.forLanguage key).get? language = _
  rw [TextMap.get?_map, hname]
  rfl

/-- A fresh run that executes the built-in sensors, in any order, has the filled
collector for their language, and all its records are of finished sensors. -/
theorem execute_builtIns {table : LanguageTable} (language : LanguageInfo)
    (htable : table.contains language.key = true) {module : Module}
    (hmodule : language.key ∈ module.languages) (plans : List BuiltIn)
    (runId : String) (policy : EmptyReportPolicy) (outside : Surroundings) :
    let executed := (start runId table policy).execute outside [module]
      (plans.map (BuiltIn.sensor language))
    (∀ record ∈ executed.reports, record.status = .finished)
      ∧ executed.run.collectors.get? language.key
        = some (BuiltIn.filled language ⟨module, outside.isDirectory⟩ plans) := by
  intro executed
  have hpairs : pairs [module] (plans.map (BuiltIn.sensor language))
      = plans.map fun b => (module, b.sensor language) := by
    simp [pairs]
  obtain ⟨hfinished, hcollector⟩ := act_builtIns hmodule outside.isDirectory plans
    (get?_start htable runId policy) (Collector.ready_forLanguage language.key)
  rw [← hpairs] at hfinished hcollector
  refine ⟨fun record hrecord => ?_, hcollector⟩
  obtain ⟨execution, hexecution, rfl⟩ := List.mem_map.mp hrecord
  exact hfinished execution hexecution

end AnalysisRun

/-! ## The whole run -/

/-- The built-in sensors in any order are the sensors of a list of plans. -/
theorem BuiltIn.exists_plans {language : LanguageInfo} {sensors : List Sensor}
    (h : sensors.Perm (all.map (sensor language))) :
    ∃ plans : List BuiltIn, sensors = plans.map (sensor language) ∧ plans.Perm all := by
  have hcomp := congrFun (congrFun (List.eq_map_comp_perm (sensor language)) sensors) all
  exact hcomp.mpr h

theorem admits_filled {table : LanguageTable} {language : LanguageInfo}
    {context : SensorContext} {plans : List BuiltIn}
    (htable : table.contains language.key = true) :
    (BuiltIn.filled language context plans).Admits table language.key := by
  have hsound : (BuiltIn.filled language context plans).Sound language.key := by
    refine (Collector.sound_forLanguage language.key).contributed fun x hx => ?_
    obtain ⟨b, -, hx⟩ := List.mem_flatMap.mp hx
    exact BuiltIn.tagged_contributions language context hx
  exact hsound.admits htable

/-- **Settings in, report out.** A fresh run that executes the built-in sensors of a
registered language, in any order, on one module that declares it finishes them all.
Finishing the run then gives, for a lenient policy, the unit and the integration set
that the settings ask for, tool by tool, and the analyzer outputs they ask for. A
strict policy refuses the first set without reports and otherwise gives the same. -/
theorem settings_in_report_out {table : LanguageTable} {key : String}
    {language : LanguageInfo} (hregistered : table.language key = .ok language)
    {module : Module} (hdeclared : key ∈ module.languages) (runId : String)
    (outside after : Surroundings) :
    ∃ (keys : TestScope → CoverageKeys) (sensors : List Sensor),
      (∀ scope, table.resolveKeys key scope = .ok (keys scope))
        ∧ Sensor.forLanguage table key = .ok sensors
        ∧ ∀ order : List Sensor, order.Perm sensors → ∀ policy : EmptyReportPolicy,
          let executed :=
            (AnalysisRun.start runId table policy).execute outside [module] order
          let sets := [module.reportSet key .unit (keys .unit) after.now,
            module.reportSet key .integration (keys .integration) after.now]
          let analyzer := module.analyzerSet outside.isDirectory language
          let report : RunReport :=
            ⟨runId, sets, TextMap.empty.insert key analyzer, executed.reports⟩
          (∀ record ∈ executed.reports, record.status = .finished)
            ∧ (executed.run.finish after [key]).result
              = match policy with
                | .lenient => .ok report
                | .strict =>
                    match sets.find? CoverageReportSet.isEmpty with
                    | some set => .error (.emptyReportSet key set.scope)
                    | none => .ok report := by
  obtain ⟨htable, rfl⟩ := LanguageTable.contains_of_language hregistered
  refine ⟨.derive language.key, BuiltIn.all.map (BuiltIn.sensor language),
    fun scope => ?_, BuiltIn.forLanguage_eq hregistered, fun order horder policy => ?_⟩
  · rw [LanguageTable.resolveKeys, LanguageTable.configuration_of_contains htable]
    rfl
  · obtain ⟨plans, rfl, hplans⟩ := BuiltIn.exists_plans horder
    obtain ⟨hfinished, hcollector⟩ :=
      AnalysisRun.execute_builtIns language htable hdeclared plans runId policy outside
    have hsets : TestScope.all.map ((BuiltIn.filled language
        ⟨module, outside.isDirectory⟩ plans).reportSet after.now language.key)
          = TestScope.all.map fun scope =>
              module.reportSet language.key scope (.derive language.key scope) after.now :=
      List.map_congr_left fun scope _ => reportSet_filled hplans scope after.now
    exact ⟨hfinished, AnalysisRun.finish_result hcollector (admits_filled htable) after
      hsets (analyzerSet_filled hplans)⟩

/-- A module with two spellings of one report, the sensors in reverse order. -/
theorem settings_in_report_out_opencover :
    let module : Module := ⟨"app", .ofText "/p",
      .ofPairs [("sonar.cs.opencover.reportsPaths", "a.xml,./a.xml,../..")], ["cs"]⟩
    let outside : Surroundings := ⟨fun _ => false, ⟨0, 0⟩, 0⟩
    ∃ sensors, Sensor.forLanguage .builtin "cs" = .ok sensors ∧
      let finished (policy : EmptyReportPolicy) :=
        ((AnalysisRun.start "run" .builtin policy).execute outside [module]
          sensors.reverse).run.finish outside ["cs"]
      (∃ report, (finished .lenient).result = .ok report
          ∧ report.coverage.map (fun set => set.paths .opencover)
            = [[.ofText "/p/a.xml"], []])
        ∧ (finished .strict).result = .error (.emptyReportSet "cs" .integration) := by
  intro module outside
  have hregistered : LanguageTable.builtin.language "cs" = .ok ⟨"cs", "C#"⟩ := by decide
  have hdeclared : "cs" ∈ module.languages := List.mem_singleton_self _
  obtain ⟨keys, sensors, hkeys, hsensors, hrun⟩ :=
    settings_in_report_out hregistered hdeclared "run" outside outside
  have hderive : ∀ scope, keys scope = .derive "cs" scope := by
    intro scope
    have hresolve : LanguageTable.builtin.resolveKeys "cs" scope
        = .ok (.derive "cs" scope) := by cases scope <;> decide
    exact Except.ok.inj ((hkeys scope).symm.trans hresolve)
  have hunit : (module.reportSet "cs" .unit (.derive "cs" .unit) ⟨0, 0⟩).paths .opencover
      = [.ofText "/p/a.xml"] := by decide +kernel
  have hintegration : (module.reportSet "cs" .integration (.derive "cs" .integration)
      ⟨0, 0⟩).paths .opencover = [] := by decide +kernel
  have hfound : (module.reportSet "cs" .unit (.derive "cs" .unit) ⟨0, 0⟩).isEmpty
      = false := by decide +kernel
  have hnone : (module.reportSet "cs" .integration (.derive "cs" .integration)
      ⟨0, 0⟩).isEmpty = true := by decide +kernel
  refine ⟨sensors, hsensors, ⟨_, (hrun _ sensors.reverse_perm .lenient).2, ?_⟩,
    (hrun _ sensors.reverse_perm .strict).2.trans ?_⟩
  · rw [hderive, hderive, List.map_cons, List.map_cons, hunit, hintegration]
    rfl
  · rw [hderive, hderive, List.find?_cons, hfound, List.find?_cons, hnone]
    rfl

end CoverageRegistry
