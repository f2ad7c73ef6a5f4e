import CoverageRegistry.Proofs.Run.Conservation

/-!
# Runs whose collectors stay open

The built-in sensors find a collector for their language, and every contribution they
make names a bucket. So a sensor is refused only where its collector was sealed, and
no sensor seals one: it takes somebody else to make a sensor fail. As long as nobody
does (`AnalysisRun.StaysOpen`), every record of a run tells of a sensor that finished
or was skipped, over any number of executions (`AnalysisRun.Flawless.after`).
-/

namespace CoverageRegistry

/-! ## Open collectors -/

/-- The collector of a language, open. -/
structure Collector.OpenFor (language : String) (c : Collector) : Prop extends c.Ready where
  bound : c.language = some language

namespace Collector.OpenFor

variable {language : String} {c : Collector}

/-- Whatever does not seal an open collector leaves it open. -/
theorem perform (h : c.OpenFor language) {op : Operation} (hop : ¬ op.Seals c) :
    (op.perform c).collector.OpenFor language := by
  by_cases hcontribute : ∃ x, op = .contribute x
  · obtain ⟨x, rfl⟩ := hcontribute
    have hspec := (Operation.contribute x).spec h.tracks
    exact ⟨h.add x, hspec.language.trans h.bound⟩
  · rcases op.collector_perform fun x hx => hcontribute ⟨x, hx⟩ with ⟨hseals, -⟩ | ⟨-, hc⟩
    · exact absurd hseals hop
    · rw [hc]
      exact h

theorem contributed {xs : List Contribution} :
    ∀ {c : Collector}, c.OpenFor language → (c.contributed xs).OpenFor language := by
  induction xs with
  | nil => intro c h; exact h
  | cons x xs ih =>
    intro c h
    have hfirst : ((Operation.contribute x).perform c).collector.OpenFor language :=
      h.perform id
    exact ih hfirst

end Collector.OpenFor

/-- Every registered language has an open collector. -/
def Collectors.Open (table : LanguageTable) (collectors : Collectors) : Prop :=
  ∀ language, table.contains language = true →
    ∃ c, collectors.get? language = some c ∧ c.OpenFor language

theorem Collectors.open_start (runId : String) (table : LanguageTable)
    (policy : EmptyReportPolicy) :
    (AnalysisRun.start runId table policy).collectors.Open table := by
  intro language hlanguage
  obtain ⟨name, hname⟩ := Option.isSome_iff_exists.mp hlanguage
  refine ⟨.forLanguage language, ?_, Collector.ready_forLanguage language, rfl⟩
  rw [AnalysisRun.start, TextMap.get?_map, hname]
  rfl

/-! ## Steps that seal nothing -/

/-- A step that executes sensors of registered languages, or does with a collector
anything that does not seal it. -/
def RunStep.KeepsOpen (run : AnalysisRun) : RunStep → Prop
  | execute _ _ sensors => ∀ sensor ∈ sensors, sensor.Registered run.table
  | operate language operation =>
      ∀ c, run.collectors.get? language = some c → ¬ operation.Seals c

namespace AnalysisRun

/-- No step of these seals a collector of the run. -/
def StaysOpen (run : AnalysisRun) : List RunStep → Prop
  | [] => True
  | first :: steps => first.KeepsOpen run ∧ (run.step first).StaysOpen steps

/-- A run with open collectors on whose record no sensor failed. -/
structure Flawless (run : AnalysisRun) : Prop where
  isOpen : run.collectors.Open run.table
  ended : ∀ record ∈ run.reports, record.status = .finished ∨ record.status = .skipped

theorem flawless_start (runId : String) (table : LanguageTable)
    (policy : EmptyReportPolicy) : (start runId table policy).Flawless :=
  ⟨Collectors.open_start runId table policy, by simp [start]⟩

/-- Tasks leave open collectors open, and none of them fails. -/
theorem act_of_open {table : LanguageTable} {tasks : List Task} (htasks : Tasked table tasks)
    (isDirectory : Path → Bool) {collectors : Collectors} (h : collectors.Open table) :
    let done := act isDirectory (tasks.map Task.pair) collectors
    done.collectors.Open table
      ∧ ∀ execution ∈ done.executions,
        execution.status = .finished ∨ execution.status = .skipped := by
  intro done
  have hready : ∀ t ∈ tasks, ∃ c, collectors.get? t.language.key = some c ∧ c.Ready := by
    intro t ht
    obtain ⟨c, hc, hopen⟩ := h t.language.key (htasks t ht)
    exact ⟨c, hc, hopen.toReady⟩
  obtain ⟨hcollectors, hexecutions⟩ := @act_open isDirectory tasks collectors hready
  refine ⟨fun language hlanguage => ?_, fun execution hexecution => ?_⟩
  · obtain ⟨c, hc, hopen⟩ := h language hlanguage
    exact ⟨_, hcollectors hc hopen.toReady, hopen.contributed⟩
  · obtain ⟨t, -, -, hverdict⟩ := hexecutions execution hexecution
    have hstatus : execution.status = (t.verdict isDirectory).1 := congrArg Prod.fst hverdict
    rw [hstatus, Task.verdict]
    by_cases happlies : t.applies = true
    · exact .inl (if_pos happlies)
    · exact .inr (if_neg happlies)

namespace Flawless

variable {run : AnalysisRun}

theorem execute (h : run.Flawless) (outside : Surroundings) (modules : List Module)
    {sensors : List Sensor} (hsensors : ∀ sensor ∈ sensors, sensor.Registered run.table) :
    (run.execute outside modules sensors).run.Flawless := by
  obtain ⟨plan, hplan⟩ := exists_plans run.table
  obtain ⟨hopen, hended⟩ :=
    act_of_open (hplan.tasked modules hsensors) outside.isDirectory h.isOpen
  rw [hplan.map_pair modules hsensors] at hopen hended
  refine ⟨hopen, fun record hrecord => ?_⟩
  rcases List.mem_append.mp hrecord with hrecord | hrecord
  · exact h.ended record hrecord
  · obtain ⟨execution, hexecution, rfl⟩ := List.mem_map.mp hrecord
    exact hended execution hexecution

theorem operate (h : run.Flawless) {language : String} {operation : Operation}
    (hoperation : ∀ c, run.collectors.get? language = some c → ¬ operation.Seals c) :
    (run.step (.operate language operation)).Flawless := by
  rw [step]
  cases hc : run.collectors.get? language with
  | none => exact h
  | some c =>
    refine ⟨fun other hother => ?_, h.ended⟩
    obtain ⟨d, hd, hopen⟩ := h.isOpen other hother
    by_cases hown : other = language
    · subst hown
      obtain rfl := Option.some.inj (hc.symm.trans hd)
      exact ⟨_, TextMap.get?_insert_self _ _ _, hopen.perform (hoperation c hc)⟩
    · exact ⟨d, (TextMap.get?_insert_of_ne _ _ hown).trans hd, hopen⟩

/-- A run stays flawless as long as nobody seals its collectors. -/
theorem after {steps : List RunStep} :
    ∀ {run : AnalysisRun}, run.Flawless → run.StaysOpen steps →
      (run.after steps).Flawless := by
  induction steps with
  | nil => intro run h _; exact h
  | cons first steps ih =>
    intro run h hsteps
    obtain ⟨hfirst, hrest⟩ := hsteps
    cases first with
    | execute outside modules sensors => exact ih (h.execute outside modules hfirst) hrest
    | operate language operation => exact ih (h.operate hfirst) hrest

end Flawless

/-! ## The report -/

theorem sensors_finish {run : AnalysisRun} {outside : Surroundings}
    {languages : List String} {report : RunReport}
    (h : (run.finish outside languages).result = .ok report) :
    report.sensors = run.reports := by
  rw [finish] at h
  simp only at h
  split at h
  · cases h
  · cases h
    rfl

/-- The report of a flawless run, where there is one, tells of a success. -/
theorem Flawless.success {run : AnalysisRun} (h : run.Flawless) {outside : Surroundings}
    {languages : List String} {report : RunReport}
    (hreport : (run.finish outside languages).result = .ok report) :
    report.success = true := by
  have hnone : report.failedSensors = [] := by
    refine List.filter_eq_nil_iff.mpr fun record hrecord => ?_
    rw [sensors_finish hreport] at hrecord
    rcases h.ended record hrecord with hstatus | hstatus <;>
      simp [hstatus, SensorStatus.isFailed]
  rw [RunReport.success, hnone]
  rfl

/-- A lenient run reports on any registered languages. -/
theorem Flawless.exists_report {run : AnalysisRun} (h : run.Flawless)
    (hpolicy : run.policy = .lenient) (outside : Surroundings) {languages : List String}
    (hlanguages : ∀ language ∈ languages, run.table.contains language = true) :
    ∃ report, (run.finish outside languages).result = .ok report := by
  refine ⟨_, @finish_lenient run hpolicy outside run.collectors.view languages
    fun language hlanguage => ?_⟩
  obtain ⟨c, hc, hopen⟩ := h.isOpen language (hlanguages language hlanguage)
  have hview : run.collectors.view language = c := by
    rw [Collectors.view, hc, Option.getD_some]
  rw [hview]
  exact ⟨Collector.admits_of_language hopen.bound (hlanguages language hlanguage), hc⟩

end AnalysisRun

end CoverageRegistry
