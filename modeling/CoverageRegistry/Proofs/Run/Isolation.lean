import CoverageRegistry.Proofs.Run.Report

/-!
# Languages do not see each other

What a run has of a language depends on the sensors of the language, on the modules
that declare it, and on the ten properties that its sensors read, whatever else the
modules declare and set, and whatever sensors of other languages are executed between
(`isolated`). The reason is twofold: a sensor reads no other property
(`BuiltIn.contributions_congr`), and it acts on the collector of its language alone
(`AnalysisRun.act_serve`).
-/

namespace CoverageRegistry

open AnalysisRun (Execution pairs)

/-! ## What a language sees of a module -/

/-- The properties of a language: those of the analyzer, and one for every tool in
each scope. -/
def LanguageInfo.propertyKeys (language : LanguageInfo) : List String :=
  [language.projectOutPathsKey, language.roslynReportPathsKey]
    ++ TestScope.all.flatMap fun scope =>
        CoverageTool.all.map (coverageKey language.key scope)

theorem LanguageInfo.mem_propertyKeys (language : LanguageInfo) (scope : TestScope)
    (tool : CoverageTool) : coverageKey language.key scope tool ∈ language.propertyKeys := by
  refine List.mem_append_right _ (List.mem_flatMap.mpr ⟨scope, ?_, ?_⟩)
  · cases scope <;> decide
  · refine List.mem_map_of_mem ?_
    cases tool <;> decide

/-- The keys come from the key of the language, not from its name. -/
theorem LanguageInfo.propertyKeys_congr {language other : LanguageInfo}
    (h : other.key = language.key) : other.propertyKeys = language.propertyKeys := by
  simp only [propertyKeys, projectOutPathsKey, roslynReportPathsKey, h]

/-- Two modules that a language cannot tell apart. -/
structure Module.AgreeOn (language : LanguageInfo) (m m' : Module) : Prop where
  key : m.key = m'.key
  baseDir : m.baseDir = m'.baseDir
  declares : language.key ∈ m.languages ↔ language.key ∈ m'.languages
  properties : ∀ property ∈ language.propertyKeys,
    m.settings.get? property = m'.settings.get? property

namespace Module.AgreeOn

variable {language : LanguageInfo} {m m' : Module} (h : AgreeOn language m m')
  {property : String} (hproperty : property ∈ language.propertyKeys)

include h

theorem of_key_eq {other : LanguageInfo} (hkey : other.key = language.key) :
    AgreeOn other m m' := by
  refine ⟨h.key, h.baseDir, ?_, ?_⟩
  · rw [hkey]
    exact h.declares
  · rw [LanguageInfo.propertyKeys_congr hkey]
    exact h.properties

theorem contains_eq :
    m.languages.contains language.key = m'.languages.contains language.key := by
  rw [Bool.eq_iff_iff, List.contains_iff_mem, List.contains_iff_mem]
  exact h.declares

include hproperty

theorem list_eq : m.settings.list property = m'.settings.list property := by
  rw [Settings.list, Settings.list, h.properties property hproperty]

theorem normalized_eq : m.normalized property = m'.normalized property := by
  rw [Module.normalized, Module.normalized, h.list_eq hproperty, h.baseDir]

theorem rejections_eq : m.rejections property = m'.rejections property := by
  rw [Module.rejections, Module.rejections, h.list_eq hproperty, h.baseDir]

end Module.AgreeOn

namespace BuiltIn

variable {language : LanguageInfo} {m m' : Module} (h : Module.AgreeOn language m m')
  (isDirectory : Path → Bool)

include h

theorem outputDirs_congr :
    SensorContext.outputDirs ⟨m, isDirectory⟩ language
      = SensorContext.outputDirs ⟨m', isDirectory⟩ language := by
  have hproperty : language.projectOutPathsKey ∈ language.propertyKeys :=
    List.mem_cons_self
  simp only [SensorContext.outputDirs, h.list_eq hproperty, h.baseDir]

theorem roslynReports_congr :
    roslynReports language ⟨m, isDirectory⟩ = roslynReports language ⟨m', isDirectory⟩ := by
  have hproperty : language.roslynReportPathsKey ∈ language.propertyKeys :=
    List.mem_cons_of_mem _ List.mem_cons_self
  simp only [roslynReports, h.normalized_eq hproperty, h.key]

/-- A sensor reads the properties of its language only. -/
theorem contributions_congr (b : BuiltIn) :
    b.contributions language ⟨m, isDirectory⟩
      = b.contributions language ⟨m', isDirectory⟩ := by
  cases b with
  | analyzerOutputs =>
    rw [contributions, contributions, outputDirs_congr h, roslynReports_congr h]
  | coverage scope =>
    refine List.flatMap_congr fun entry hentry => ?_
    obtain ⟨tool, -, rfl⟩ := List.mem_map.mp hentry
    have hproperty := language.mem_propertyKeys scope tool
    rw [← CoverageKeys.get_derive] at hproperty
    simp only [propertyContribution, h.list_eq hproperty, h.normalized_eq hproperty, h.key]

theorem rejected_congr (b : BuiltIn) :
    b.rejected language ⟨m, isDirectory⟩ = b.rejected language ⟨m', isDirectory⟩ := by
  cases b with
  | analyzerOutputs => rfl
  | coverage scope =>
    refine congrArg List.sum (List.map_congr_left fun entry hentry => ?_)
    obtain ⟨tool, -, rfl⟩ := List.mem_map.mp hentry
    have hproperty := language.mem_propertyKeys scope tool
    rw [← CoverageKeys.get_derive] at hproperty
    exact h.rejections_eq hproperty

end BuiltIn

/-! ## Tasks that look alike -/

/-- One sensor on two modules that its language cannot tell apart. -/
structure Task.Alike (t t' : Task) : Prop where
  language : t.language = t'.language
  plan : t.plan = t'.plan
  module : Module.AgreeOn t.language t.module t'.module

/-- What a record tells of an execution, apart from its time. -/
def AnalysisRun.Execution.summary (execution : Execution) :
    String × ModuleKey × SensorStatus × SensorOutcome :=
  (execution.sensor.descriptor.name, execution.module.key, execution.status,
    execution.outcome)

namespace Task

variable {t t' : Task} (h : Alike t t') (isDirectory : Path → Bool)

include h

theorem Alike.applies : t.applies = t'.applies := by
  rw [Task.applies, Task.applies, h.module.contains_eq, h.language]

theorem Alike.contributions : t.contributions isDirectory = t'.contributions isDirectory := by
  rw [Task.contributions, Task.contributions, h.applies,
    BuiltIn.contributions_congr h.module, h.language, h.plan]

theorem Alike.rejected : t.rejected isDirectory = t'.rejected isDirectory := by
  rw [Task.rejected, Task.rejected, h.applies, BuiltIn.rejected_congr h.module, h.language,
    h.plan]

theorem Alike.summary (c : Collector) :
    (t.execution isDirectory c).summary = (t'.execution isDirectory c).summary := by
  have hending : t.ending isDirectory c = t'.ending isDirectory c := by
    rw [ending, ending, h.applies, h.contributions, h.rejected]
  simp only [Execution.summary, execution, Execution.status, Execution.outcome, hending,
    h.language, h.plan, h.module.key]

end Task

/-- Alike tasks serve a collector alike. -/
theorem Collector.serve_congr (isDirectory : Path → Bool) {tasks tasks' : List Task}
    (h : List.Forall₂ Task.Alike tasks tasks') :
    ∀ c : Collector, (c.serve isDirectory tasks).2 = (c.serve isDirectory tasks').2
      ∧ (c.serve isDirectory tasks).1.map Execution.summary
        = (c.serve isDirectory tasks').1.map Execution.summary := by
  induction h with
  | nil => intro c; exact ⟨rfl, rfl⟩
  | cons h _ ih =>
    intro c
    rw [serve, serve, h.contributions]
    obtain ⟨hcollector, hexecutions⟩ := ih (c.contributeAll _).2
    refine ⟨hcollector, ?_⟩
    rw [List.map_cons, List.map_cons, h.summary, hexecutions]

/-! ## The tasks of a language in a run -/

/-- The sensors of a language. -/
def sensorsOf (language : String) (sensors : List Sensor) : List Sensor :=
  sensors.filter fun sensor => sensor.descriptor.onlyOnLanguage = some language

theorem pairs_sensorsOf (language : String) (modules : List Module)
    (sensors : List Sensor) :
    pairs modules (sensorsOf language sensors)
      = (pairs modules sensors).filter fun pair =>
          pair.2.descriptor.onlyOnLanguage = some language := by
  simp only [pairs, sensorsOf, List.filter_flatMap, List.filter_map, Function.comp_def]

theorem Plans.key_eq {table : LanguageTable} {plan : Sensor → LanguageInfo × BuiltIn}
    (h : Plans table plan) {sensor : Sensor} (hsensor : sensor.Registered table) :
    sensor.descriptor.onlyOnLanguage = some (plan sensor).1.key := by
  obtain ⟨-, hplan⟩ := h sensor hsensor
  rw [← BuiltIn.onlyOnLanguage_sensor (plan sensor).1 (plan sensor).2, hplan]

theorem Plans.key_of_mem_sensorsOf {table : LanguageTable}
    {plan : Sensor → LanguageInfo × BuiltIn} (h : Plans table plan) {language : String}
    {sensors : List Sensor} (hsensors : ∀ sensor ∈ sensors, sensor.Registered table)
    {sensor : Sensor} (hsensor : sensor ∈ sensorsOf language sensors) :
    (plan sensor).1.key = language := by
  obtain ⟨hmem, hlanguage⟩ := List.mem_filter.mp hsensor
  have hkey := (h.key_eq (hsensors sensor hmem)).symm.trans (of_decide_eq_true hlanguage)
  exact Option.some.inj hkey

/-- The tasks of a language are those of its sensors. -/
theorem Plans.tasksOf_all {table : LanguageTable}
    {plan : Sensor → LanguageInfo × BuiltIn} (h : Plans table plan) (language : String)
    (modules : List Module) {sensors : List Sensor}
    (hsensors : ∀ sensor ∈ sensors, sensor.Registered table) :
    tasksOf language (Task.all plan modules sensors)
      = Task.all plan modules (sensorsOf language sensors) := by
  rw [tasksOf, Task.all, Task.all, List.filter_map, pairs_sensorsOf]
  refine congrArg _ (List.filter_congr fun pair hpair => ?_)
  refine decide_eq_decide.mpr ?_
  rw [h.key_eq (hsensors pair.2 (AnalysisRun.sensor_mem_of_mem_pairs hpair)),
    Option.some.injEq]
  rfl

/-- On modules that a language cannot tell apart, its sensors make alike tasks. -/
theorem alike_all {plan : Sensor → LanguageInfo × BuiltIn} {language : LanguageInfo}
    {sensors : List Sensor} (hkey : ∀ sensor ∈ sensors, (plan sensor).1.key = language.key)
    {modules modules' : List Module}
    (h : List.Forall₂ (Module.AgreeOn language) modules modules') :
    List.Forall₂ Task.Alike (Task.all plan modules sensors)
      (Task.all plan modules' sensors) := by
  rw [Task.all, Task.all, List.forall₂_map_left_iff, List.forall₂_map_right_iff]
  refine List.rel_flatMap h fun module module' hagree => ?_
  rw [List.forall₂_map_left_iff, List.forall₂_map_right_iff, List.forall₂_same]
  intro sensor hsensor
  exact ⟨rfl, rfl, hagree.of_key_eq (hkey sensor hsensor)⟩

namespace AnalysisRun

/-- What the records of an execution tell of the sensors of a language. -/
def summariesOf (language : String) (modules : List Module) (sensors : List Sensor)
    (records : List SensorReport) :
    List (String × ModuleKey × SensorStatus × SensorOutcome) :=
  (((pairs modules sensors).zip records).filter fun entry =>
    entry.1.2.descriptor.onlyOnLanguage = some language).map fun entry =>
      (entry.2.sensor, entry.2.module, entry.2.status, entry.2.outcome)

theorem summariesOf_execute (language : String) (run : AnalysisRun)
    (outside : Surroundings) (modules : List Module) (sensors : List Sensor) :
    summariesOf language modules sensors
        (run.execute outside modules sensors).reports
      = (executionsOf language (act outside.isDirectory (pairs modules sensors)
          run.collectors).executions).map Execution.summary := by
  have hzip : (pairs modules sensors).zip (run.execute outside modules sensors).reports
      = (act outside.isDirectory (pairs modules sensors) run.collectors).executions.map
          fun execution =>
            ((execution.module, execution.sensor), execution.report outside.millis) := by
    rw [← List.zip_map', map_pair_executions, execute]
  rw [summariesOf, hzip, List.filter_map, List.map_map]
  rfl

variable {table : LanguageTable} {language : LanguageInfo}

/-- What one execution of a fresh run has of a language. -/
theorem execute_start_language {plan : Sensor → LanguageInfo × BuiltIn}
    (hplan : Plans table plan) (hlanguage : table.contains language.key = true)
    (modules : List Module) {sensors : List Sensor}
    (hsensors : ∀ sensor ∈ sensors, sensor.Registered table) (runId : String)
    (policy : EmptyReportPolicy) (outside : Surroundings) :
    let executed := (start runId table policy).execute outside modules sensors
    let served := (Collector.forLanguage language.key).serve outside.isDirectory
      (Task.all plan modules (sensorsOf language.key sensors))
    executed.run.collectors.get? language.key = some served.2
      ∧ summariesOf language.key modules sensors executed.reports
        = served.1.map Execution.summary := by
  have htasks := hplan.tasked modules hsensors
  have hcollectors : ∀ t ∈ Task.all plan modules sensors,
      (start runId table policy).collectors.contains t.language.key = true :=
    fun t ht => TextMap.contains_of_get? (get?_start (htasks t ht) runId policy)
  obtain ⟨hexecutions, hcollector⟩ := act_serve outside.isDirectory language.key
    (Task.all plan modules sensors) hcollectors (get?_start hlanguage runId policy)
  rw [hplan.map_pair modules hsensors, hplan.tasksOf_all language.key modules hsensors]
    at hexecutions hcollector
  refine ⟨hcollector, ?_⟩
  rw [summariesOf_execute, hexecutions]

end AnalysisRun

end CoverageRegistry
