import CoverageRegistry.Proofs.Run.Task
import CoverageRegistry.Proofs.Sensor.Rejection

/-!
# What a run reports as rejected

Only the actions of sensors report entries that cannot be normalized, and each of them
is an invalid entry of a property that the sensor reads
(`AnalysisRun.exists_task_of_rejection`). The rest of a run, from its start to the
report sets at its end, reports none.
-/

namespace CoverageRegistry

namespace LogEntry

@[simp] theorem map_event_plain (events : List Event) :
    (plain events).map LogEntry.event = events := by
  simp [plain, Function.comp_def]

@[simp] theorem map_event_within (span : String) (entries : List LogEntry) :
    (within span entries).map LogEntry.event = entries.map LogEntry.event := by
  simp [within, Function.comp_def]

end LogEntry

theorem rejections_eq_nil {events : List Event}
    (h : ∀ event ∈ events, event.isRejection = false) : rejections events = [] :=
  List.filter_eq_nil_iff.mpr fun event hevent => by simp [h event hevent]

/-! ## Reads -/

namespace Collector

variable (c : Collector) (table : LanguageTable) (policy : EmptyReportPolicy)
  (now : Timestamp) (language : String)

@[simp] theorem rejections_sealUp : rejections c.sealUp.events = [] := by
  unfold sealUp
  split <;> rfl

@[simp] theorem rejections_analyzerReports : rejections c.analyzerReports.events = [] :=
  c.rejections_sealUp

@[simp] theorem rejections_buildReportSet (scope : TestScope) :
    rejections (c.buildReportSet table policy now language scope).events = [] := by
  rw [buildReportSet]
  split
  · rfl
  · split
    · rfl
    · simp only
      split
      · exact c.rejections_sealUp
      · rw [rejections_append, rejections_sealUp]
        rfl

@[simp] theorem rejections_buildScopes (scopes : List TestScope) :
    ∀ c : Collector,
      rejections (c.buildScopes table policy now language scopes).events = [] := by
  induction scopes with
  | nil => intro c; rfl
  | cons scope scopes ih =>
    intro c
    rw [buildScopes]
    simp only
    split
    · exact c.rejections_buildReportSet table policy now language scope
    · rw [rejections_append, rejections_buildReportSet, ih, List.append_nil]

end Collector

namespace AnalysisRun

variable (run : AnalysisRun) (outside : Surroundings)

theorem rejections_build (now : Timestamp) (languages : List String) :
    ∀ (collectors : Collectors) (built : List CoverageReportSet × TextMap AnalyzerReportSet),
      rejections (run.build now languages collectors built).events = [] := by
  induction languages with
  | nil => intro collectors built; rfl
  | cons language languages ih =>
    intro collectors built
    rw [build]
    split
    · rfl
    · simp only [Collector.buildAll]
      split
      · exact Collector.rejections_buildScopes _ _ _ _ _ _
      · simp [ih]

theorem rejections_finish (languages : List String) :
    rejections ((run.finish outside languages).log.map LogEntry.event) = [] := by
  rw [finish]
  simp only
  split
  · simp [rejections_build]
  · simp [rejections_build]
    rfl

/-- Of an execution only the actions of the sensors report invalid entries. -/
theorem rejections_execute (modules : List Module) (sensors : List Sensor) :
    rejections ((run.execute outside modules sensors).log.map LogEntry.event)
      = rejections
          (act outside.isDirectory (pairs modules sensors) run.collectors).events := by
  have hended : ∀ executions : List Execution,
      rejections (executions.filterMap fun execution => execution.event? outside.millis)
        = [] := by
    intro executions
    refine rejections_eq_nil fun event hevent => ?_
    obtain ⟨execution, -, hexecution⟩ := List.mem_filterMap.mp hevent
    rw [Execution.event?] at hexecution
    split at hexecution <;> cases hexecution <;> rfl
  have hstarted : ∀ skipped : List (Module × Sensor),
      rejections (.runStarted run.runId (modules.length * sensors.length)
        :: skipped.map fun pair => .sensorSkipped pair.2.descriptor.name skipReason) = [] := by
    intro skipped
    refine rejections_eq_nil fun event hevent => ?_
    rcases List.mem_cons.mp hevent with rfl | hevent
    · rfl
    · obtain ⟨pair, -, rfl⟩ := List.mem_map.mp hevent
      rfl
  rw [execute]
  simp only [List.map_append, LogEntry.map_event_plain, LogEntry.map_event_within,
    rejections_append, hstarted, hended, List.nil_append, List.append_nil]

/-! ## Actions -/

variable {isDirectory : Path → Bool}

/-- An entry that is reported as rejected is an invalid one that a task had to read. -/
theorem exists_task_of_rejection {tasks : List Task} {event : Event} :
    ∀ {collectors : Collectors},
      event ∈ rejections (act isDirectory (tasks.map Task.pair) collectors).events →
      ∃ t ∈ tasks, event ∈ t.module.rejectionsOf (t.plan.sources t.language) := by
  induction tasks with
  | nil => intro collectors h; cases h
  | cons t tasks ih =>
    intro collectors h
    rw [List.map_cons, act] at h
    split at h
    · simp only [rejections_append, List.mem_append] at h
      rcases h with h | h
      · have hreported := t.plan.rejections_action t.language ⟨t.module, isDirectory⟩
          collectors
        exact ⟨t, List.mem_cons_self, hreported.isPrefix.subset h⟩
      · obtain ⟨u, hu, hevent⟩ := ih h
        exact ⟨u, List.mem_cons_of_mem _ hu, hevent⟩
    · obtain ⟨u, hu, hevent⟩ := ih h
      exact ⟨u, List.mem_cons_of_mem _ hu, hevent⟩

end AnalysisRun

end CoverageRegistry
