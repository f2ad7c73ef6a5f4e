import CoverageRegistry.Command.Program
import CoverageRegistry.Proofs.Run.Open
import CoverageRegistry.Proofs.Run.Rejection

/-!
# Collections do not fail in their sensors

A collection executes the sensors of one language in a run of its own, so nobody else
seals its collectors, and no sensor fails. Its module has an absolute base directory
wherever the program runs in one, so no entry is refused for a relative base. The main
statement is `sensors_never_fail`.
-/

namespace CoverageRegistry.Command

namespace Collection

/-! ## The events of a collection -/

theorem rejections_load (files : FileSystem) (path : Path) :
    rejections (Settings.load files path).2 = [] := by
  rw [Settings.load]
  split
  · rfl
  · split <;> rfl

theorem rejections_discard (collectors : Collectors) :
    rejections (AnalysisRun.discard collectors) = [] := by
  refine rejections_eq_nil fun event hevent => ?_
  obtain ⟨c, -, rfl⟩ := List.mem_map.mp hevent
  rfl

variable (collection : Collection) (host : Host) (table : LanguageTable)

/-- A collection fails before anything runs, or it answers what its run does. -/
theorem report_cases :
    (∃ failure, (collection.report host table).1 = .error failure
        ∧ (∀ failed, failure ≠ .sensors failed)
        ∧ rejections (collection.report host table).2 = [])
      ∨ ∃ settings sensors,
        (Settings.load host.files collection.settings).1 = .ok settings
          ∧ Sensor.forLanguage table collection.language = .ok sensors
          ∧ (collection.report host table).1 = (collection.run host table settings sensors).1
          ∧ rejections (collection.report host table).2
            = rejections (collection.run host table settings sensors).2 := by
  have hload := rejections_load host.files collection.settings
  rw [report]
  simp only
  cases hsettings : (Settings.load host.files collection.settings).1 with
  | error error => exact .inl ⟨_, rfl, by simp, hload⟩
  | ok settings =>
    cases hsensors : Sensor.forLanguage table collection.language with
    | error error => exact .inl ⟨_, rfl, by simp, hload⟩
    | ok sensors =>
      refine .inr ⟨settings, sensors, rfl, rfl, rfl, ?_⟩
      simp only [rejections_append, hload, List.nil_append]

/-- The run of a collection reports what the actions of its sensors report. -/
theorem rejections_run (settings : Settings) (sensors : List Sensor) :
    rejections (collection.run host table settings sensors).2
      = rejections (AnalysisRun.act host.files.isDirectory
          (AnalysisRun.pairs [collection.toModule host.currentDir settings] sensors)
          (AnalysisRun.start host.runId table collection.policy).collectors).events := by
  have hcollecting : ∀ events : List Event,
      rejections (.collecting host.runId collection.language :: events)
        = rejections events := fun _ => rfl
  rw [run]
  simp only [hcollecting, List.map_append, rejections_append, rejections_discard,
    AnalysisRun.rejections_execute, AnalysisRun.rejections_finish, List.append_nil]
  rfl

/-! ## Failures -/

/-- The run of a collection has no report sets, or it reports a success. -/
theorem run_cases {settings : Settings} {sensors : List Sensor}
    (hsensors : Sensor.forLanguage table collection.language = .ok sensors) :
    (∃ error, (collection.run host table settings sensors).1 = .error (.reportSets error))
      ∨ ∃ report, (collection.run host table settings sensors).1 = .ok report
        ∧ report.success = true := by
  have hregistered : ∀ sensor ∈ sensors, sensor.Registered table :=
    fun sensor hsensor => ⟨collection.language, sensors, hsensors, hsensor⟩
  have hflawless := (AnalysisRun.flawless_start host.runId table collection.policy).execute
    host.surroundings [collection.toModule host.currentDir settings] hregistered
  rw [run]
  simp only
  cases hfinished : (AnalysisRun.finish _ host.surroundings [collection.language]).result with
  | error error => exact .inl ⟨error, rfl⟩
  | ok report => exact .inr ⟨report, rfl, hflawless.success hfinished⟩

/-- No collection fails for its sensors. -/
theorem perform_ne_sensors (failed : List (String × String)) :
    ((Action.collect collection).perform host table).1 ≠ .error (.sensors failed) := by
  show (collection.report host table).1 >>= answer ≠ _
  rcases collection.report_cases host table with
    ⟨failure, hfailure, hother, -⟩ | ⟨settings, sensors, -, hsensors, hrun, -⟩
  · rw [hfailure]
    intro heq
    exact hother failed (Except.error.inj heq)
  · rw [hrun]
    rcases collection.run_cases host table hsensors with
      ⟨error, herror⟩ | ⟨report, hreport, hsuccess⟩
    · rw [herror]
      simp [bind, Except.bind]
    · rw [hreport]
      show answer report ≠ _
      rw [answer, if_pos hsuccess]
      split <;> simp

/-! ## Rejected entries -/

theorem isAbsolute_baseDir {currentDir : Path} (h : currentDir.isAbsolute = true) :
    (collection.baseDir currentDir).isAbsolute = true := by
  rw [baseDir]
  split
  · exact Path.isAbsolute_join h
  · exact h

/-- What a collection reports as rejected is an invalid entry of its module, in a
property that a sensor of its language reads. -/
theorem exists_of_rejection {event : Event}
    (h : event ∈ rejections ((Action.collect collection).perform host table).2) :
    ∃ settings language b,
      (Settings.load host.files collection.settings).1 = .ok settings
        ∧ table.language collection.language = .ok language
        ∧ event ∈ (collection.toModule host.currentDir settings).rejectionsOf
            (BuiltIn.sources language b) := by
  rw [Action.perform] at h
  simp only at h
  rcases collection.report_cases host table with
    ⟨failure, -, -, hnone⟩ | ⟨settings, sensors, hsettings, hsensors, -, hrun⟩
  · rw [hnone] at h
    cases h
  · obtain ⟨language, hlanguage, rfl⟩ := BuiltIn.exists_of_forLanguage hsensors
    let module := collection.toModule host.currentDir settings
    let tasks : List Task := BuiltIn.all.map fun b => ⟨module, language, b⟩
    have hpairs : AnalysisRun.pairs [module] (BuiltIn.all.map (BuiltIn.sensor language))
        = tasks.map Task.pair := rfl
    rw [hrun, rejections_run, hpairs] at h
    obtain ⟨t, ht, hevent⟩ := AnalysisRun.exists_task_of_rejection h
    obtain ⟨b, -, rfl⟩ := List.mem_map.mp ht
    exact ⟨settings, language, b, hsettings, hlanguage, hevent⟩

end Collection

/-- **Built-in sensors never fail in their own run.** A fresh run goes through any
steps: it executes sensors of registered languages on any modules, and others do with
its collectors whatever does not seal them. Then every sensor on its record finished or
was skipped, and so its report tells of a success, whenever it is finished; leniently
it always is. A collection is such a run: it never fails for its sensors. The entries
that it reports as rejected are invalid ones of its module; none of them is for a
relative base where the current directory is absolute, however its own base is given. -/
theorem sensors_never_fail (table : LanguageTable) :
    (∀ (runId : String) (policy : EmptyReportPolicy) (steps : List RunStep),
      (AnalysisRun.start runId table policy).StaysOpen steps →
        let run := (AnalysisRun.start runId table policy).after steps
        (∀ record ∈ run.reports, record.status = .finished ∨ record.status = .skipped)
          ∧ ∀ (outside : Surroundings) (languages : List String),
            (∀ report, (run.finish outside languages).result = .ok report →
                report.success = true)
              ∧ (policy = .lenient →
                (∀ language ∈ languages, table.contains language = true) →
                  ∃ report, (run.finish outside languages).result = .ok report))
      ∧ ∀ (host : Host) (collection : Collection),
        let done := (Action.collect collection).perform host table
        (∀ failed, done.1 ≠ .error (.sensors failed))
          ∧ (∀ event ∈ rejections done.2, ∃ settings language b,
            (Settings.load host.files collection.settings).1 = .ok settings
              ∧ table.language collection.language = .ok language
              ∧ event ∈ (collection.toModule host.currentDir settings).rejectionsOf
                  (BuiltIn.sources language b))
          ∧ (host.currentDir.isAbsolute = true → ∀ settings source,
            ∀ error ∈ (collection.toModule host.currentDir settings).invalidEntries source,
              ∀ base, error.cause ≠ .relativeBase base) := by
  refine ⟨fun runId policy steps hsteps => ?_, fun host collection => ⟨?_, ?_, ?_⟩⟩
  · intro run
    have hrun : run.Flawless :=
      (AnalysisRun.flawless_start runId table policy).after hsteps
    obtain ⟨htable, hkept⟩ := AnalysisRun.unchanged_after steps
      (AnalysisRun.start runId table policy)
    refine ⟨hrun.ended, fun outside languages => ⟨fun report hreport => ?_, ?_⟩⟩
    · exact hrun.success hreport
    · intro hpolicy hlanguages
      refine hrun.exists_report (hkept.trans hpolicy) outside fun language hlanguage => ?_
      rw [htable]
      exact hlanguages language hlanguage
  · exact collection.perform_ne_sensors host table
  · intro event hevent
    exact collection.exists_of_rejection host table hevent
  · intro hcurrent settings source error herror base
    exact Module.cause_of_mem_invalidEntries herror
      (collection.isAbsolute_baseDir hcurrent) base

/-- Two executions with a contribution of somebody else between them, and a collection
with a relative base and an entry that leads out of the file system. -/
theorem sensors_never_fail_twice :
    let outside : Surroundings := ⟨fun _ => false, ⟨0, 0⟩, 0⟩
    let module (key files : String) : Module :=
      ⟨key, .ofText "/p", .ofPairs [("sonar.cs.opencover.reportsPaths", files)], ["cs"]⟩
    let property := "sonar.cs.opencover.reportsPaths"
    let settings := "[properties]\n\"" ++ property ++ "\" = \"../../../a.xml\"\n"
    let files : FileSystem := ⟨fun _ => .ok (Utf8.encode settings.toList), fun _ => false⟩
    let host : Host := ⟨files, .ofText "/work", ⟨0, 0⟩, 0, "run"⟩
    let collection : Collection := ⟨.ofText "s.toml", some (.ofText "sub"), "app", "cs", false⟩
    let done := (Action.collect collection).perform host .builtin
    ∃ sensors, Sensor.forLanguage .builtin "cs" = .ok sensors ∧
      let steps : List RunStep :=
        [.execute outside [module "app" "a.xml"] sensors,
          .operate "cs" (.contribute (.paths .opencover (some .unit) [.ofText "/p/b.xml"])),
          .execute outside [module "lib" "b.xml"] sensors]
      let run := (AnalysisRun.start "run" .builtin .lenient).after steps
      (∃ report, (run.finish outside ["cs"]).result = .ok report ∧ report.success = true)
        ∧ (∀ failed, done.1 ≠ .error (.sensors failed))
        ∧ (rejections done.2).length = 1
        ∧ ∃ error ∈ (collection.toModule host.currentDir
              (.ofPairs [(property, "../../../a.xml")])).invalidEntries ⟨property, id⟩,
            ∀ base, error.cause ≠ .relativeBase base := by
  intro outside module property settings files host collection done
  have hlanguage : LanguageTable.builtin.language "cs" = .ok ⟨"cs", "C#"⟩ := by decide
  have hregistered : ∀ sensor ∈ BuiltIn.all.map (BuiltIn.sensor ⟨"cs", "C#"⟩),
      sensor.Registered .builtin := fun sensor hsensor =>
    ⟨"cs", _, BuiltIn.forLanguage_eq hlanguage, hsensor⟩
  refine ⟨_, BuiltIn.forLanguage_eq hlanguage, ?_⟩
  intro steps run
  have hsteps : (AnalysisRun.start "run" .builtin .lenient).StaysOpen steps :=
    ⟨hregistered, fun _ _ => id, hregistered, trivial⟩
  obtain ⟨hruns, hcollections⟩ := sensors_never_fail .builtin
  obtain ⟨-, hfinish⟩ := hruns "run" .lenient steps hsteps
  obtain ⟨hsuccess, hreports⟩ := hfinish outside ["cs"]
  obtain ⟨report, hreport⟩ := hreports rfl (by decide)
  obtain ⟨hdone, -, hbase⟩ := hcollections host collection
  refine ⟨⟨report, hreport, hsuccess report hreport⟩, hdone, by decide +kernel, ?_⟩
  have hinvalid : ⟨"../../../a.xml", .escapesRoot "../../../a.xml"⟩
      ∈ (collection.toModule host.currentDir
          (.ofPairs [(property, "../../../a.xml")])).invalidEntries ⟨property, id⟩ := by
    decide +kernel
  exact ⟨_, hinvalid, hbase (by decide) _ _ _ hinvalid⟩

end CoverageRegistry.Command
