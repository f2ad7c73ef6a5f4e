import CoverageRegistry.Proofs.Run.Execution

/-!
# Modules in several executions

The pairs of two lists of modules are those of the one list followed by those of the
other, and actions take pairs one by one. So it does not matter at which modules an
execution ends and the next one begins, whatever the sensors do to the collectors in
between: the collectors, the records without their times, and all that the end of the run
makes of them are the same (`execute_append`, `executeBatches_eq`).

Times are left out of records, reports and runs by `untimed`. Executing and finishing
commute with this (`execute_untimed`, `finish_untimed`), so runs that are equal without
their times stay so.
-/

namespace CoverageRegistry

/-! ## Records without their times -/

/-- The same record without its time. -/
def SensorReport.untimed (report : SensorReport) : SensorReport :=
  { report with millis := 0 }

/-- The same report without the times of the sensors. -/
def RunReport.untimed (report : RunReport) : RunReport :=
  { report with sensors := report.sensors.map SensorReport.untimed }

/-- Whether sensors failed does not depend on their times. -/
theorem RunReport.success_untimed (report : RunReport) :
    report.untimed.success = report.success := by
  have hfailed : report.untimed.failedSensors
      = report.failedSensors.map SensorReport.untimed := List.filter_map
  rw [success, success, hfailed, List.isEmpty_map]

namespace AnalysisRun

/-- The same run without the times of its records. -/
def untimed (run : AnalysisRun) : AnalysisRun :=
  { run with reports := run.reports.map SensorReport.untimed }

theorem collectors_congr {run run' : AnalysisRun} (h : run.untimed = run'.untimed) :
    run.collectors = run'.collectors := by
  have hcollectors := congrArg collectors h
  exact hcollectors

variable (run : AnalysisRun) (outside : Surroundings) (sensors : List Sensor)

/-! ## Executing -/

/-- The times that a run has, and those that the clock counts, do not matter. -/
theorem execute_untimed (millis : Nat) (modules : List Module) :
    (run.untimed.execute { outside with millis := millis } modules sensors).run.untimed
      = (run.execute outside modules sensors).run.untimed := by
  simp only [execute, untimed, List.map_append, List.map_map]
  rfl

theorem execute_congr {run run' : AnalysisRun} (h : run.untimed = run'.untimed)
    (millis : Nat) (modules : List Module) :
    (run.execute { outside with millis := millis } modules sensors).run.untimed
      = (run'.execute outside modules sensors).run.untimed := by
  rw [← execute_untimed run _ sensors millis, h]
  exact execute_untimed run' outside sensors millis modules

theorem pairs_append (before after : List Module) :
    pairs (before ++ after) sensors = pairs before sensors ++ pairs after sensors :=
  List.flatMap_append

/-- Executing the modules of two lists leaves what executing the one list and then the
other leaves. -/
theorem executeBoth_eq (before after : List Module) :
    let first := run.execute outside before sensors
    let second := first.run.execute outside after sensors
    let whole := run.execute outside (before ++ after) sensors
    second.run = whole.run ∧ first.reports ++ second.reports = whole.reports := by
  intro first second whole
  have hact := act_append outside.isDirectory (pairs before sensors) (pairs after sensors)
    run.collectors
  rw [← pairs_append] at hact
  have hreports : first.reports ++ second.reports = whole.reports := by
    simp only [first, second, whole, execute, hact, List.map_append]
  have hrun : second.run = { run with
      collectors := (act outside.isDirectory (pairs after sensors)
        (act outside.isDirectory (pairs before sensors) run.collectors).collectors).collectors
      reports := run.reports ++ (first.reports ++ second.reports) } := by
    simp only [first, second, execute, List.append_assoc]
  refine ⟨?_, hreports⟩
  rw [hrun, hreports]
  simp only [whole, execute, hact]

/-- The records and the inner events of an execution depend on the collectors only. -/
theorem reports_execute_congr {run run' : AnalysisRun} (h : run.collectors = run'.collectors)
    (millis : Nat) (modules : List Module) :
    let executed := run.execute { outside with millis := millis } modules sensors
    let executed' := run'.execute outside modules sensors
    executed.reports.map SensorReport.untimed = executed'.reports.map SensorReport.untimed
      ∧ innerEntries executed.log = innerEntries executed'.log := by
  intro executed executed'
  obtain ⟨-, hinner⟩ := entries_execute run { outside with millis := millis } modules sensors
  obtain ⟨-, hinner'⟩ := entries_execute run' outside modules sensors
  constructor
  · simp only [executed, executed', execute, h, List.map_map]
    rfl
  · rw [hinner, hinner', h]

theorem innerEntries_append (xs ys : List LogEntry) :
    innerEntries (xs ++ ys) = innerEntries xs ++ innerEntries ys :=
  List.filter_append ..

/-- The inner events of two executions are those of the one of all modules. -/
theorem innerEntries_execute_append (before after : List Module) :
    let first := run.execute outside before sensors
    let second := first.run.execute outside after sensors
    innerEntries (first.log ++ second.log)
      = innerEntries (run.execute outside (before ++ after) sensors).log := by
  intro first second
  obtain ⟨-, hfirst⟩ := entries_execute run outside before sensors
  obtain ⟨-, hsecond⟩ := entries_execute first.run outside after sensors
  obtain ⟨-, hwhole⟩ := entries_execute run outside (before ++ after) sensors
  have hact := act_append outside.isDirectory (pairs before sensors) (pairs after sensors)
    run.collectors
  rw [innerEntries_append, hfirst, hsecond, hwhole, pairs_append, hact]
  simp [LogEntry.within, LogEntry.plain, first, execute]

/-- Executes sensors on batches of modules, one after the other. The clock counts its own
milliseconds for each batch. -/
def executeBatches (outside : Surroundings) (sensors : List Sensor) :
    AnalysisRun → List (Nat × List Module) → AnalysisRun
  | run, [] => run
  | run, batch :: later =>
    executeBatches outside sensors
      (run.execute { outside with millis := batch.1 } batch.2 sensors).run later

/-- Batches leave what one execution of all their modules leaves, up to times. -/
theorem executeBatches_eq (batches : List (Nat × List Module)) :
    ∀ run : AnalysisRun, (executeBatches outside sensors run batches).untimed
      = (run.execute outside (batches.flatMap Prod.snd) sensors).run.untimed := by
  induction batches with
  | nil =>
    intro run
    have hnone : (run.execute outside [] sensors).run
        = { run with reports := run.reports ++ [] } := rfl
    rw [List.flatMap_nil, hnone, List.append_nil]
    rfl
  | cons batch later ih =>
    intro run
    obtain ⟨hrun, -⟩ :=
      executeBoth_eq run outside sensors batch.2 (later.flatMap Prod.snd)
    have hfirst := execute_congr outside sensors (Eq.refl run.untimed) batch.1 batch.2
    rw [executeBatches, ih, List.flatMap_cons, ← hrun]
    exact execute_congr outside sensors hfirst outside.millis (later.flatMap Prod.snd)

/-! ## Finishing -/

theorem build_untimed (now : Timestamp) (languages : List String) :
    ∀ collectors built, run.untimed.build now languages collectors built
      = run.build now languages collectors built := by
  induction languages with
  | nil => intro collectors built; rfl
  | cons language languages ih =>
    intro collectors built
    simp only [build, ih]
    rfl

/-- The end of a run does not look at the times of its records. -/
theorem finish_untimed (languages : List String) :
    let finished := run.finish outside languages
    run.untimed.finish outside languages
      = ⟨finished.result.map RunReport.untimed, finished.collectors, finished.log⟩ := by
  intro finished
  have hbuild : run.untimed.build outside.now languages run.untimed.collectors ([], .empty)
      = run.build outside.now languages run.collectors ([], .empty) :=
    build_untimed run outside.now languages _ _
  simp only [finished, finish, hbuild]
  cases (run.build outside.now languages run.collectors ([], .empty)).result with
  | error error => rfl
  | ok sets =>
    have hsuccess := RunReport.success_untimed ⟨run.runId, sets.1, sets.2, run.reports⟩
    simp only [← hsuccess]
    rfl

/-- Runs that are equal up to times end alike. -/
theorem finish_congr {run run' : AnalysisRun} (h : run.untimed = run'.untimed)
    (languages : List String) :
    let finished := run.finish outside languages
    let finished' := run'.finish outside languages
    finished.result.map RunReport.untimed = finished'.result.map RunReport.untimed
      ∧ finished.collectors = finished'.collectors ∧ finished.log = finished'.log := by
  intro finished finished'
  have hfinish := finish_untimed run outside languages
  rw [h, finish_untimed run' outside languages] at hfinish
  exact ⟨(congrArg Finished.result hfinish).symm, (congrArg Finished.collectors hfinish).symm,
    (congrArg Finished.log hfinish).symm⟩

/-- **Where one execution ends and the next one begins cannot be told.** Executing sensors
on some modules and then on others leaves the run that executing them on all modules
leaves, up to the times of the records: with the same collectors, also where sensors have
sealed some of them, and with the same records, those of both executions one after the
other. The sensors have reported the same events. Whenever the run is finished then, with
whatever languages, it answers with the same report up to times, or with the same error,
and leaves the same collectors and the same events. -/
theorem execute_append (before after : List Module) (millis millis₁ millis₂ : Nat) :
    let timed (millis : Nat) : Surroundings := { outside with millis := millis }
    let first := run.execute (timed millis₁) before sensors
    let second := first.run.execute (timed millis₂) after sensors
    let whole := run.execute (timed millis) (before ++ after) sensors
    second.run.collectors = whole.run.collectors
      ∧ second.run.untimed = whole.run.untimed
      ∧ (first.reports ++ second.reports).map SensorReport.untimed
        = whole.reports.map SensorReport.untimed
      ∧ innerEntries (first.log ++ second.log) = innerEntries whole.log
      ∧ ∀ later languages,
        let finished := second.run.finish later languages
        let finished' := whole.run.finish later languages
        finished.result.map RunReport.untimed = finished'.result.map RunReport.untimed
          ∧ finished.collectors = finished'.collectors ∧ finished.log = finished'.log := by
  intro timed first second whole
  -- the same two executions, by the clock of the one
  let first' := run.execute (timed millis) before sensors
  let second' := first'.run.execute (timed millis) after sensors
  obtain ⟨hrun, hreports⟩ := executeBoth_eq run (timed millis) sensors before after
  have hfirst : first.run.untimed = first'.run.untimed :=
    execute_congr (timed millis) sensors rfl millis₁ before
  have hsecond : second.run.untimed = whole.run.untimed := by
    rw [← show second'.run = whole.run from hrun]
    exact execute_congr (timed millis) sensors hfirst millis₂ after
  obtain ⟨hreports₁, hinner₁⟩ :=
    reports_execute_congr (timed millis) sensors (Eq.refl run.collectors) millis₁ before
  obtain ⟨hreports₂, hinner₂⟩ :=
    reports_execute_congr (timed millis) sensors (collectors_congr hfirst) millis₂ after
  refine ⟨collectors_congr hsecond, hsecond, ?_, ?_, fun later languages =>
    finish_congr later hsecond languages⟩
  · rw [← hreports, List.map_append, List.map_append, hreports₁, hreports₂]
  · rw [← innerEntries_execute_append run (timed millis) sensors before after]
    rw [innerEntries_append, innerEntries_append, hinner₁, hinner₂]

end AnalysisRun

end CoverageRegistry
