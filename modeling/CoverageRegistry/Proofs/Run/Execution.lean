import CoverageRegistry.Proofs.Run.Slots
import CoverageRegistry.Proofs.Run.Task

/-!
# One record per pair

Executing sensors on modules takes the pairs row by row, so the pair of a module and a
sensor has a place that is computed from theirs (`getElem?_pairs`). What stands there is
what the sensor ended with on the collectors that the pairs before it left
(`getElem?_executions`), and the record and the event of a pair are read off it
(`Records`). `execute_aligned` collects what this means for a whole execution, also for
sensors that come back out of order.
-/

namespace CoverageRegistry

/-! ## The report of a sensor without an answer -/

theorem head?_append_text {start : String} {c : Char} (h : start.toList.head? = some c)
    (rest : String) : (start ++ rest).toList.head? = some c := by
  rw [String.toList_append, List.head?_append, h]
  rfl

/-- What a message starts with tells the kind of error. -/
def RegistryError.opening : RegistryError → String
  | invalidPath _ => "invalid report path '"
  | unknownLanguage _ => "unknown language: "
  | registrySealed _ _ => "registry is sealed; rejected contribution for "
  | emptyReportSet _ _ => "no coverage reports found for language '"
  | scopeMismatch _ _ => "report kind "
  | languageMismatch _ _ => "collector holds '"
  | config _ => "configuration error: "
  | toml _ => "toml parse error: "
  | io _ => "io error: "

/-- No opening starts like the report of a sensor that gave no answer. -/
theorem RegistryError.head?_opening (error : RegistryError) :
    ∃ c, error.opening.toList.head? = some c ∧ c ≠ 's' := by
  cases error <;> simp [opening]

theorem RegistryError.head?_message (error : RegistryError) {c : Char}
    (h : error.opening.toList.head? = some c) : error.message.toList.head? = some c := by
  cases error with
  | invalidPath error => exact head?_append_text (head?_append_text (head?_append_text h _) _) _
  | unknownLanguage _ | config _ | toml _ | io _ => exact head?_append_text h _
  | registrySealed _ _ | emptyReportSet _ _ | scopeMismatch _ _ | languageMismatch _ _ =>
    exact head?_append_text (head?_append_text (head?_append_text (head?_append_text h _) _) _) _

/-- No error reads like the report of a sensor that gave no answer. -/
theorem RegistryError.message_ne_noAnswer (error : RegistryError) :
    error.message ≠ AnalysisRun.noAnswer := by
  obtain ⟨c, hopening, hc⟩ := error.head?_opening
  intro h
  have hhead := error.head?_message hopening
  rw [h] at hhead
  have hsensor : AnalysisRun.noAnswer.toList.head? = some 's' := by simp [AnalysisRun.noAnswer]
  exact hc (Option.some.inj (hhead.symm.trans hsensor))

/-- The event of the end of a sensor, as its record tells it. -/
def SensorReport.event (report : SensorReport) : Event :=
  match report.status with
  | .skipped => .sensorSkipped report.sensor AnalysisRun.skipReason
  | .finished => .sensorFinished report.sensor report.outcome.contributed report.millis
  | .failed error =>
    if error = AnalysisRun.noAnswer then .sensorAborted else .sensorFailed report.sensor error

namespace AnalysisRun

/-! ## The places of the pairs -/

theorem length_pairs (modules : List Module) (sensors : List Sensor) :
    (pairs modules sensors).length = modules.length * sensors.length := by
  simp [pairs, List.length_flatMap]

/-- The pairs stand in rows, one for each module. -/
theorem getElem?_pairs {sensors : List Sensor} {sensor : Sensor} {j : Nat}
    (hsensor : sensors[j]? = some sensor) {modules : List Module} :
    ∀ {i : Nat} {module : Module}, modules[i]? = some module →
      (pairs modules sensors)[i * sensors.length + j]? = some (module, sensor) := by
  have hj : j < sensors.length := (List.getElem?_eq_some_iff.mp hsensor).1
  induction modules with
  | nil => intro i module h; simp at h
  | cons first modules ih =>
    intro i module h
    rw [pairs, List.flatMap_cons]
    cases i with
    | zero =>
      obtain rfl : first = module := by simpa using h
      rw [Nat.zero_mul, Nat.zero_add, List.getElem?_append_left (by simpa using hj),
        List.getElem?_map, hsensor, Option.map_some]
    | succ i =>
      have hplace : (i + 1) * sensors.length + j
          = (sensors.map fun sensor => (first, sensor)).length + (i * sensors.length + j) := by
        rw [List.length_map, Nat.add_mul, Nat.one_mul]
        omega
      rw [hplace, List.getElem?_append_right (Nat.le_add_right _ _), Nat.add_sub_cancel_left]
      exact ih (by simpa using h)

/-! ## What the pairs end with -/

variable (isDirectory : Path → Bool)

theorem act_append (xs ys : List (Module × Sensor)) :
    ∀ collectors : Collectors,
      let first := act isDirectory xs collectors
      let others := act isDirectory ys first.collectors
      act isDirectory (xs ++ ys) collectors
        = ⟨first.executions ++ others.executions, others.collectors,
            first.events ++ others.events⟩ := by
  induction xs with
  | nil => intro collectors; rfl
  | cons pair xs ih =>
    intro collectors
    simp only [List.cons_append, act, ih]
    -- a pair that is run puts its events in front, one that is skipped has none
    split
    · simp only [List.cons_append, List.append_assoc]
    · rfl

/-- What the sensor of a pair does where the pairs before it have been executed. -/
def effectAt (all : List (Module × Sensor)) (collectors : Collectors) (place : Nat)
    (pair : Module × Sensor) : Effect :=
  pair.2.action ⟨pair.1, isDirectory⟩ (act isDirectory (all.take place) collectors).collectors

/-- At the place of a pair stands what its sensor ended with, if it was run. -/
theorem getElem?_executions {all : List (Module × Sensor)} {place : Nat}
    {pair : Module × Sensor} (h : all[place]? = some pair) (collectors : Collectors) :
    (act isDirectory all collectors).executions[place]?
      = some ⟨pair.1, pair.2,
          if applies pair then
            some (effectAt isDirectory all collectors place pair).ending
          else none⟩ := by
  obtain ⟨hplace, hpair⟩ := List.getElem?_eq_some_iff.mp h
  have hsplit : all = all.take place ++ pair :: all.drop (place + 1) := by
    rw [← hpair, List.cons_getElem_drop_succ, List.take_append_drop]
  have hbefore : (act isDirectory (all.take place) collectors).executions.length = place := by
    have hlength := congrArg List.length
      (map_pair_executions isDirectory (all.take place) collectors)
    rw [List.length_map, List.length_take, Nat.min_eq_left (Nat.le_of_lt hplace)] at hlength
    exact hlength
  conv_lhs => rw [hsplit, act_append]
  rw [List.getElem?_append_right (Nat.le_of_eq hbefore), hbefore, Nat.sub_self, act, effectAt]
  split <;> rfl

/-- A pair that does not apply leaves no trace beside its record: its sensor is not run. -/
theorem act_filter_applies (all : List (Module × Sensor)) :
    ∀ collectors : Collectors,
      (act isDirectory all collectors).collectors
          = (act isDirectory (all.filter applies) collectors).collectors
        ∧ (act isDirectory all collectors).events
          = (act isDirectory (all.filter applies) collectors).events := by
  induction all with
  | nil => intro collectors; exact ⟨rfl, rfl⟩
  | cons pair all ih =>
    intro collectors
    rw [List.filter_cons]
    by_cases happlies : applies pair = true
    · rw [if_pos happlies, act, act, if_pos happlies, if_pos happlies]
      obtain ⟨hcollectors, hevents⟩ :=
        ih (pair.2.action ⟨pair.1, isDirectory⟩ collectors).collectors
      exact ⟨hcollectors, congrArg (_ ++ ·) hevents⟩
    · rw [if_neg happlies, act, if_neg happlies]
      exact ih collectors

theorem scheduled_executions {all : List (Module × Sensor)} :
    ∀ {collectors : Collectors} {execution : Execution},
      execution ∈ (act isDirectory all collectors).executions → execution.Scheduled := by
  induction all with
  | nil => intro collectors execution h; cases h
  | cons pair all ih =>
    intro collectors execution h
    rw [act] at h
    split at h
    · rename_i happlies
      rcases List.mem_cons.mp h with rfl | h
      · simp [Execution.Scheduled, Execution.pair, happlies]
      · exact ih h
    · rename_i happlies
      rcases List.mem_cons.mp h with rfl | h
      · simpa [Execution.Scheduled, Execution.pair] using happlies
      · exact ih h

/-! ## Records -/

/-- A record says what became of a sensor on a module, given what the sensor would do. -/
structure Records (module : Module) (sensor : Sensor) (effect : Effect)
    (report : SensorReport) : Prop where
  module_eq : report.module = module.key
  sensor_eq : report.sensor = sensor.descriptor.name
  skipped_iff : report.status = .skipped ↔
    ∃ language, sensor.descriptor.onlyOnLanguage = some language ∧ language ∉ module.languages
  finished_iff : ∀ outcome, report.status = .finished ∧ report.outcome = outcome ↔
    report.status ≠ .skipped ∧ effect.ending = .finished outcome
  failed_iff : ∀ text, report.status = .failed text ↔
    report.status ≠ .skipped
      ∧ ((∃ error, effect.ending = .failed error ∧ error.message = text)
        ∨ effect.ending = .aborted ∧ text = noAnswer)
  aborted_iff : report.status = .failed noAnswer ↔
    report.status ≠ .skipped ∧ effect.ending = .aborted
  outcome_eq : report.status ≠ .finished → report.outcome = .none

theorem applies_eq_false_iff (pair : Module × Sensor) :
    applies pair = false ↔
      ∃ language, pair.2.descriptor.onlyOnLanguage = some language
        ∧ language ∉ pair.1.languages := by
  rw [applies, SensorDescriptor.appliesTo]
  cases pair.2.descriptor.onlyOnLanguage <;> simp

/-- The record of an execution says what became of it. -/
theorem records_report (pair : Module × Sensor) (effect : Effect) (elapsed : Nat) :
    Records pair.1 pair.2 effect
      (Execution.report ⟨pair.1, pair.2, if applies pair then some effect.ending else none⟩
        elapsed) := by
  cases happlies : applies pair with
  | false =>
    have hskipped := (applies_eq_false_iff pair).mp happlies
    refine ⟨rfl, rfl, iff_of_true rfl hskipped, ?_, ?_, ?_, fun _ => rfl⟩
    all_goals simp [Execution.report, Execution.status]
  | true =>
    have hskipped := mt (applies_eq_false_iff pair).mpr (by simp [happlies])
    rw [if_pos rfl]
    cases hending : effect.ending with
    | finished outcome =>
      refine ⟨rfl, rfl, iff_of_false ?_ hskipped, ?_, ?_, ?_, ?_⟩
      all_goals simp [Execution.report, Execution.status, Execution.outcome, hending]
    | failed error =>
      refine ⟨rfl, rfl, iff_of_false ?_ hskipped, ?_, ?_, ?_, fun _ => rfl⟩
      all_goals simp [Execution.report, Execution.status, hending, error.message_ne_noAnswer]
    | aborted =>
      refine ⟨rfl, rfl, iff_of_false ?_ hskipped, ?_, ?_, ?_, fun _ => rfl⟩
      all_goals simp [Execution.report, Execution.status, hending, eq_comm]

/-! ## Events -/

/-- The entries of a log outside every span: those of an execution itself. -/
def ownEntries (log : List LogEntry) : List LogEntry :=
  log.filter fun entry => entry.spans.isEmpty

/-- The entries of a log inside a span: those of the sensors. -/
def innerEntries (log : List LogEntry) : List LogEntry :=
  log.filter fun entry => !entry.spans.isEmpty

/-- The events of the pairs that do not apply. -/
def skippedEvents (all : List (Module × Sensor)) : List Event :=
  (all.filter fun pair => !applies pair).map fun pair =>
    .sensorSkipped pair.2.descriptor.name skipReason

theorem event_report_of_event? {execution : Execution} {elapsed : Nat} {event : Event}
    (h : execution.event? elapsed = some event) : (execution.report elapsed).event = event := by
  obtain ⟨module, sensor, ending⟩ := execution
  rcases ending with - | outcome | error | -
  · cases h
  · cases h
    rfl
  · cases h
    exact if_neg error.message_ne_noAnswer
  · cases h
    simp [SensorReport.event, Execution.report, Execution.status]

/-- Every pair has one event: it was skipped, or its sensor ended. -/
theorem events_perm (elapsed : Nat) {executions : List Execution}
    (h : ∀ execution ∈ executions, execution.Scheduled) :
    (skippedEvents (executions.map Execution.pair)
        ++ executions.filterMap fun execution => execution.event? elapsed).Perm
      (executions.map fun execution => (execution.report elapsed).event) := by
  induction executions with
  | nil => exact .refl _
  | cons execution executions ih =>
    have hrest := ih fun other hother => h other (List.mem_cons_of_mem _ hother)
    have hscheduled := h execution List.mem_cons_self
    rw [skippedEvents] at hrest ⊢
    rw [List.map_cons, List.map_cons, List.filter_cons]
    -- an execution without an event of its own is a skipped one, and stands in front
    cases hevent : execution.event? elapsed with
    | none =>
      have hnone : execution.ending = none := by
        rw [Execution.event?] at hevent
        split at hevent
        · assumption
        all_goals cases hevent
      have hskipped : (execution.report elapsed).event
          = .sensorSkipped execution.pair.2.descriptor.name skipReason := by
        rw [SensorReport.event, Execution.report, Execution.status, hnone]
        rfl
      rw [hscheduled.mp hnone, List.filterMap_cons, hevent, hskipped]
      exact hrest.cons _
    | some event =>
      have happlies : applies execution.pair = true := by
        refine eq_true_of_ne_false fun hnot => ?_
        rw [Execution.event?, hscheduled.mpr hnot] at hevent
        cases hevent
      rw [happlies, List.filterMap_cons, hevent, event_report_of_event? hevent]
      exact List.perm_middle.trans (hrest.cons event)

/-- The log of an execution: its start and the events of the pairs, and those of the
sensors in their span. -/
theorem entries_execute (run : AnalysisRun) (outside : Surroundings) (modules : List Module)
    (sensors : List Sensor) :
    let all := pairs modules sensors
    let done := act outside.isDirectory all run.collectors
    let log := (run.execute outside modules sensors).log
    ownEntries log = LogEntry.plain
        (.runStarted run.runId (modules.length * sensors.length) :: (skippedEvents all
          ++ done.executions.filterMap fun execution => execution.event? outside.millis))
      ∧ innerEntries log = LogEntry.within executeSpan (LogEntry.plain done.events) := by
  intro all done log
  have hplain : ∀ events, ownEntries (LogEntry.plain events) = LogEntry.plain events
      ∧ innerEntries (LogEntry.plain events) = [] := by
    intro events
    simp [ownEntries, innerEntries, LogEntry.plain]
  have hwithin : ∀ span entries, ownEntries (LogEntry.within span entries) = []
      ∧ innerEntries (LogEntry.within span entries) = LogEntry.within span entries := by
    intro span entries
    simp [ownEntries, innerEntries, LogEntry.within]
  have happend : ∀ xs ys, ownEntries (xs ++ ys) = ownEntries xs ++ ownEntries ys
      ∧ innerEntries (xs ++ ys) = innerEntries xs ++ innerEntries ys :=
    fun xs ys => ⟨List.filter_append .., List.filter_append ..⟩
  refine ⟨?_, ?_⟩
  · simp only [log, execute, (happend _ _).1, (hplain _).1, (hwithin _ _).1, List.append_nil]
    simp [LogEntry.plain, skippedEvents, all, done]
  · simp only [log, execute, (happend _ _).2, (hplain _).2, (hwithin _ _).2, List.append_nil,
      List.nil_append, all, done]

/-! ## Execution -/

/-- **Execution gives one aligned record for each pair**, whatever the sensors do and
whatever the run has been through. The record of a module and a sensor stands at the place
of their pair, with their names, and says what became of the sensor (`Records`) on the
collectors that the pairs before it left. A sensor that does not apply is not run: the
collectors and the events of the sensors are as if it were not there. Beside these, the
execution reports its start, and for each pair one event that agrees with the record. The
records are put behind those of the run. All this stays so where the sensors come back in
another order and their answers are written into slots. -/
theorem execute_aligned (run : AnalysisRun) (outside : Surroundings) (modules : List Module)
    (sensors : List Sensor) :
    let all := pairs modules sensors
    let executed := run.execute outside modules sensors
    let bodies := act outside.isDirectory (all.filter applies) run.collectors
    executed.reports.length = modules.length * sensors.length
      ∧ (∀ i j module sensor, modules[i]? = some module → sensors[j]? = some sensor →
          let place := i * sensors.length + j
          ∃ report, executed.reports[place]? = some report
            ∧ Records module sensor
              (effectAt outside.isDirectory all run.collectors place (module, sensor)) report)
      ∧ executed.run.collectors = bodies.collectors
      ∧ innerEntries executed.log = LogEntry.within executeSpan (LogEntry.plain bodies.events)
      ∧ (∃ ended, ownEntries executed.log = LogEntry.plain
            (.runStarted run.runId (modules.length * sensors.length) :: ended)
          ∧ ended.Perm (executed.reports.map SensorReport.event))
      ∧ executed.run.reports = run.reports ++ executed.reports
      ∧ ∀ arrivals, arrivals.Perm (completions outside.millis
            (act outside.isDirectory all run.collectors).executions) →
          let collected := Completion.collect (all.map slot) arrivals
          collected.1 = executed.reports
            ∧ (skippedEvents all ++ collected.2).Perm
              (executed.reports.map SensorReport.event) := by
  intro all executed bodies
  obtain ⟨hown, hinner⟩ := entries_execute run outside modules sensors
  obtain ⟨hcollectors, hbodies⟩ := act_filter_applies outside.isDirectory all run.collectors
  have hpairs : (act outside.isDirectory all run.collectors).executions.map Execution.pair
      = all := map_pair_executions outside.isDirectory all run.collectors
  have hscheduled : ∀ execution ∈ (act outside.isDirectory all run.collectors).executions,
      execution.Scheduled := fun _ => scheduled_executions outside.isDirectory
  have hevents := events_perm outside.millis hscheduled
  have hslots : (act outside.isDirectory all run.collectors).executions.map
      (fun execution => slot execution.pair) = all.map slot :=
    List.map_map.symm.trans (congrArg (List.map slot) hpairs)
  have hreports : executed.reports
      = (act outside.isDirectory all run.collectors).executions.map
        fun execution => execution.report outside.millis := rfl
  rw [hpairs] at hevents
  refine ⟨?_, ?_, hcollectors, ?_, ⟨_, hown, ?_⟩, rfl, ?_⟩
  · rw [hreports, List.length_map, ← length_pairs, ← List.length_map Execution.pair, hpairs]
  · intro i j module sensor hmodule hsensor place
    have hexecution := getElem?_executions outside.isDirectory
      (getElem?_pairs hsensor hmodule) run.collectors
    refine ⟨_, ?_, records_report (module, sensor) _ outside.millis⟩
    rw [hreports, List.getElem?_map, hexecution, Option.map_some]
  · rw [← hbodies]
    exact hinner
  · rw [hreports, List.map_map]
    exact hevents
  · intro arrivals harrivals collected
    obtain ⟨hfilled, hcompleted⟩ := collect_perm outside.millis hscheduled harrivals
    rw [hslots] at hfilled hcompleted
    refine ⟨hfilled, ?_⟩
    rw [hreports, List.map_map]
    exact (hcompleted.append_left (skippedEvents all)).trans hevents

/-- The four endings on two modules: skipped and finished, failed, and stopped, with the
answers coming back from last to first. -/
theorem execute_aligned_four_endings :
    let sensor (name : String) (language : Option String) (ending : Ending) : Sensor :=
      ⟨⟨name, language⟩, fun _ collectors => ⟨ending, collectors, []⟩⟩
    let sensors := [sensor "failing" none (.failed (.config (.other "broken sensor"))),
      sensor "vb only" (some "vbnet") (.finished ⟨1, 0⟩), sensor "stopping" none .aborted]
    let module (key language : String) : Module := ⟨key, .ofText "/repo", .empty, [language]⟩
    let modules := [module "A" "cs", module "B" "vbnet"]
    let run := start "run" .builtin .lenient
    let outside : Surroundings := ⟨fun _ => false, ⟨0, 0⟩, 7⟩
    let executed := run.execute outside modules sensors
    let done := act outside.isDirectory (pairs modules sensors) run.collectors
    executed.reports.length = 6
      ∧ (∃ report : SensorReport, executed.reports[1]? = some report ∧ report.status = .skipped)
      ∧ (∃ report : SensorReport, executed.reports[4]? = some report
        ∧ report.status = .finished ∧ report.outcome = ⟨1, 0⟩)
      ∧ (Completion.collect ((pairs modules sensors).map slot)
          (completions outside.millis done.executions).reverse).1 = executed.reports := by
  intro sensor sensors module modules run outside executed done
  obtain ⟨hlength, hrecords, -, -, -, -, hslots⟩ := execute_aligned run outside modules sensors
  refine ⟨hlength, ?_, ?_, (hslots _ (List.reverse_perm _)).1⟩
  · obtain ⟨report, hplace, hreport⟩ := hrecords 0 1 _ _ rfl rfl
    exact ⟨report, hplace, hreport.skipped_iff.mpr ⟨"vbnet", rfl, by decide⟩⟩
  · obtain ⟨report, hplace, hreport⟩ := hrecords 1 1 _ _ rfl rfl
    have happlied : report.status ≠ .skipped := by
      intro hskipped
      obtain ⟨language, hlanguage, hmissing⟩ := hreport.skipped_iff.mp hskipped
      obtain rfl : "vbnet" = language := Option.some.inj hlanguage
      exact hmissing (by decide)
    exact ⟨report, hplace, (hreport.finished_iff ⟨1, 0⟩).mpr ⟨happlied, rfl⟩⟩

end AnalysisRun

end CoverageRegistry
