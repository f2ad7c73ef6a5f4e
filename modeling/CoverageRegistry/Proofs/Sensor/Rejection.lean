import CoverageRegistry.Proofs.Sensor.Contributions

/-!
# Entries that cannot be normalized

A sensor reads the entries of some properties of a module (`BuiltIn.sources`) and
passes over those that have no normal form (`Module.invalidEntries`). A sensor that
finishes has reported one event for each of them, in order
(`BuiltIn.rejections_action`), and the coverage sensors also count them in their
outcome. The sensor of analyzer outputs reports them and counts none
(`Sensor.rejections_reported`, `Sensor.rejection_not_counted`).
-/

namespace CoverageRegistry

/-! ## Invalid entries -/

/-- Whether an event reports an entry that cannot be normalized. -/
def Event.isRejection : Event → Bool
  | pathRejected .. => true
  | _ => false

/-- The events among some that report an entry that cannot be normalized. -/
def rejections (events : List Event) : List Event :=
  events.filter Event.isRejection

@[simp] theorem rejections_nil : rejections [] = [] := rfl

@[simp] theorem rejections_append (xs ys : List Event) :
    rejections (xs ++ ys) = rejections xs ++ rejections ys :=
  List.filter_append ..

/-- The error of a text that has no normal form. -/
def invalid? (base : Path) (text : String) : Option InvalidPath :=
  match normalize text base with
  | .ok _ => none
  | .error error => some error

theorem snd_normalizeAll (raws : List String) (base : Path) :
    (normalizeAll raws base).2 = raws.filterMap (invalid? base) := by
  refine List.filterMap_congr fun raw _ => ?_
  unfold invalid?
  cases normalize raw base <;> rfl

/-- A property that lists paths, and the text of the path that an entry leads to. -/
structure PathSource where
  property : String
  pathText : String → String

/-- The entries of a property that have no normal form, as the errors they give. -/
def Module.invalidEntries (module : Module) (source : PathSource) : List InvalidPath :=
  (module.settings.list source.property).filterMap fun raw =>
    invalid? module.baseDir (source.pathText raw)

/-- No entry is invalid for a relative base where the base is absolute. -/
theorem Module.cause_of_mem_invalidEntries {module : Module} {source : PathSource}
    {error : InvalidPath} (h : error ∈ module.invalidEntries source)
    (hbase : module.baseDir.isAbsolute = true) (base : String) :
    error.cause ≠ .relativeBase base := by
  obtain ⟨raw, -, hraw⟩ := List.mem_filterMap.mp h
  rw [invalid?] at hraw
  cases hnormalize : normalize (source.pathText raw) module.baseDir with
  | ok path => simp [hnormalize] at hraw
  | error cause =>
    simp only [hnormalize, Option.some.injEq] at hraw
    subst hraw
    rw [normalize, normalizePath_eq, hbase] at hnormalize
    simp only [Bool.true_eq_false, and_false, if_false] at hnormalize
    split at hnormalize
    · cases hnormalize
      simp
    · split at hnormalize
      · cases hnormalize
        simp
      · cases hnormalize

/-- The properties that a sensor reads, in order. An entry of the first one of the
analyzer leads to the output directory below it, every other entry to itself. -/
def BuiltIn.sources (language : LanguageInfo) : BuiltIn → List PathSource
  | analyzerOutputs =>
      [⟨language.projectOutPathsKey, fun raw => raw ++ "/" ++ language.analyzerOutputDir⟩,
        ⟨language.roslynReportPathsKey, id⟩]
  | coverage scope =>
      CoverageTool.all.map fun tool => ⟨coverageKey language.key scope tool, id⟩

/-- The events that report the invalid entries of some properties. -/
def Module.rejectionsOf (module : Module) (sources : List PathSource) : List Event :=
  sources.flatMap fun source => rejectionEvents source.property (module.invalidEntries source)

/-- The number of invalid entries of some properties. -/
def Module.invalidCount (module : Module) (sources : List PathSource) : Nat :=
  (sources.map fun source => (module.invalidEntries source).length).sum

theorem length_rejectionsOf (module : Module) (sources : List PathSource) :
    (module.rejectionsOf sources).length = module.invalidCount sources := by
  simp [Module.rejectionsOf, rejectionEvents, List.length_flatMap, Module.invalidCount]

@[simp] theorem rejections_rejectionEvents (property : String) (errors : List InvalidPath) :
    rejections (rejectionEvents property errors) = rejectionEvents property errors := by
  simp [rejections, rejectionEvents, List.filter_map, Function.comp_def, Event.isRejection]

/-- A contribution reports no entry. -/
@[simp] theorem rejections_add (c : Collector) (x : Contribution) :
    rejections (x.add c).events = [] := by
  rw [x.add_eq]
  split
  · unfold Collector.offer
    split
    · rfl
    · split <;> rfl
  · rfl

@[simp] theorem rejections_offerUnlessEmpty {α : Type} (c : Collector) (items : List α)
    (make : List α → Contribution) :
    rejections (offerUnlessEmpty items (fun items => (make items).add c) c).events = [] := by
  unfold offerUnlessEmpty
  split
  · rfl
  · exact rejections_add c (make items)

/-! ## The actions of the sensors -/

/-- Events report the invalid entries of some properties, in order: all of them where
what emits the events is completed, else perhaps only the first. -/
structure ReportsInvalid (module : Module) (sources : List PathSource)
    (events : List Event) (completed : Prop) : Prop where
  isPrefix : rejections events <+: module.rejectionsOf sources
  all : completed → rejections events = module.rejectionsOf sources

theorem ReportsInvalid.of_eq {module : Module} {sources : List PathSource}
    {events : List Event} {completed : Prop}
    (h : rejections events = module.rejectionsOf sources) :
    ReportsInvalid module sources events completed :=
  ⟨h ▸ List.prefix_rfl, fun _ => h⟩

section

variable (module : Module) (scope : TestScope)

theorem rejections_importProperty (tool : CoverageTool) (property : String)
    (c : Collector) :
    rejections (importProperty module scope tool property c).events
      = module.rejectionsOf [⟨property, id⟩] := by
  have hinvalid : module.rejectionsOf [⟨property, id⟩]
      = rejectionEvents property
          (normalizeAll (module.settings.list property) module.baseDir).2 := by
    rw [snd_normalizeAll, Module.rejectionsOf, List.flatMap_singleton]
    rfl
  rw [hinvalid, importProperty]
  split
  · rename_i hnone
    rw [List.isEmpty_iff.mp hnone]
    rfl
  · have hadd := rejections_add c (.modulePaths module.key tool.reportKind (some scope)
      (normalizeAll (module.settings.list property) module.baseDir).1)
    rw [Contribution.add] at hadd
    rw [rejections_append, rejections_rejectionEvents, hadd, List.append_nil]

theorem reportsInvalid_importProperties (entries : List (CoverageTool × String)) :
    ∀ c : Collector, let answer := importProperties module scope entries c
      ReportsInvalid module (entries.map fun entry => ⟨entry.2, id⟩) answer.events
        (∃ outcome, answer.result = .ok outcome) := by
  induction entries with
  | nil => intro c; exact .of_eq rfl
  | cons entry rest ih =>
    intro c
    obtain ⟨tool, property⟩ := entry
    have hfirst := rejections_importProperty module scope tool property c
    have hsources : module.rejectionsOf
        (((tool, property) :: rest).map fun entry => ⟨entry.2, id⟩)
          = module.rejectionsOf [⟨property, id⟩]
            ++ module.rejectionsOf (rest.map fun entry => ⟨entry.2, id⟩) := by
      simp [Module.rejectionsOf]
    rw [importProperties]
    cases (importProperty module scope tool property c).result with
    | error error =>
      -- the other properties are not read
      refine ⟨?_, by simp⟩
      rw [hsources, hfirst]
      exact List.prefix_append _ _
    | ok outcome =>
      have hrest := ih (importProperty module scope tool property c).collector
      simp only
      refine ⟨?_, ?_⟩
      · rw [hsources, rejections_append, hfirst]
        exact (List.prefix_append_right_inj _).mpr hrest.isPrefix
      · rintro ⟨merged, hmerged⟩
        cases hothers : (importProperties module scope rest
            (importProperty module scope tool property c).collector).result with
        | error error => simp [hothers, Except.map] at hmerged
        | ok others =>
          rw [hsources, rejections_append, hfirst, hrest.all ⟨others, hothers⟩]

end

/-- Reading the output directories reports the entries that lead to no path; a missing
directory is no invalid entry. -/
theorem rejections_protobufEvents (language : LanguageInfo) (module : Module)
    (isDirectory : Path → Bool) :
    rejections (AnalyzerConfiguration.protobufEvents
        ⟨language, module.settings, module.baseDir⟩ isDirectory)
      = rejectionEvents language.projectOutPathsKey (module.invalidEntries
          ⟨language.projectOutPathsKey, fun raw => raw ++ "/" ++ language.analyzerOutputDir⟩) := by
  rw [rejections, AnalyzerConfiguration.protobufEvents, List.filter_filterMap, rejectionEvents,
    Module.invalidEntries, List.map_filterMap]
  refine List.filterMap_congr fun raw _ => ?_
  simp only [AnalyzerConfiguration.protobufEvent?, AnalyzerConfiguration.outputDir, invalid?]
  cases normalize (raw ++ "/" ++ language.analyzerOutputDir) module.baseDir with
  | error error => rfl
  | ok dir =>
    simp only
    split <;> rfl

theorem rejections_roslynEvents (language : LanguageInfo) (module : Module) :
    rejections (AnalyzerConfiguration.roslynEvents
        ⟨language, module.settings, module.baseDir⟩)
      = rejectionEvents language.roslynReportPathsKey
          (module.invalidEntries ⟨language.roslynReportPathsKey, id⟩) := by
  rw [AnalyzerConfiguration.roslynEvents, rejections_rejectionEvents,
    AnalyzerConfiguration.roslynEntries, snd_normalizeAll]
  rfl

theorem reportsInvalid_importAnalyzerOutputs (language : LanguageInfo)
    (context : SensorContext) (c : Collector) :
    let answer := importAnalyzerOutputs language context c
    ReportsInvalid context.module (BuiltIn.analyzerOutputs.sources language) answer.events
      (∃ outcome, answer.result = .ok outcome) := by
  have hsources : context.module.rejectionsOf (BuiltIn.analyzerOutputs.sources language)
      = rejections (AnalyzerConfiguration.protobufEvents
            ⟨language, context.module.settings, context.module.baseDir⟩ context.isDirectory)
        ++ rejections (AnalyzerConfiguration.roslynEvents
            ⟨language, context.module.settings, context.module.baseDir⟩) := by
    rw [rejections_protobufEvents, rejections_roslynEvents]
    simp [Module.rejectionsOf, BuiltIn.sources]
  have hdirs : ∀ (c : Collector) dirs,
      rejections (offerUnlessEmpty dirs c.addProtobufDirs c).events = [] :=
    fun c dirs => rejections_offerUnlessEmpty c dirs .protobufDirs
  have hfiles : ∀ (c : Collector) reports,
      rejections (offerUnlessEmpty reports c.addRoslynReports c).events = [] :=
    fun c reports => rejections_offerUnlessEmpty c reports .roslynReports
  rw [importAnalyzerOutputs]
  simp only
  split
  · -- the report files are not read where the directories are refused
    refine ⟨?_, by simp⟩
    rw [hsources, rejections_append, hdirs, List.append_nil]
    exact List.prefix_append _ _
  · split
    · refine .of_eq ?_
      simp only [hsources, rejections_append, hdirs, hfiles, List.append_nil]
    · refine .of_eq ?_
      simp only [hsources, rejections_append, hdirs, hfiles, List.append_nil]
      exact List.append_nil _

namespace BuiltIn

variable (b : BuiltIn) (language : LanguageInfo) (context : SensorContext)
  (collectors : Collectors)

/-- A sensor without a collector fails before it reads anything. -/
theorem action_of_get?_eq_none (h : collectors.get? language.key = none) :
    (b.sensor language).action context collectors
      = ⟨.failed (.unknownLanguage language.key), collectors, []⟩ := by
  have hfind : collectors.find language.key = .error (.unknownLanguage language.key) := by
    rw [Collectors.find, h]
  cases b <;> exact (show actOn _ _ _ = _ by rw [actOn, hfind])

/-- **A built-in sensor that finishes has reported the invalid entries of its
properties**, all of them and in order. One that fails has reported some of the first. -/
theorem rejections_action :
    let effect := (b.sensor language).action context collectors
    ReportsInvalid context.module (b.sources language) effect.events
      (∃ outcome, effect.ending = .finished outcome) := by
  intro effect
  cases hc : collectors.get? language.key with
  | none =>
    have heffect : effect = _ := b.action_of_get?_eq_none language context collectors hc
    rw [heffect]
    exact ⟨List.nil_prefix, by simp⟩
  | some c =>
    have hfind : collectors.find language.key = .ok c := by
      rw [Collectors.find, hc]
    have hact : ∀ {action : Collector → Collector.Answer (Except RegistryError
        SensorOutcome)},
        ReportsInvalid context.module (b.sources language) (action c).events
          (∃ outcome, (action c).result = .ok outcome) →
        ReportsInvalid context.module (b.sources language)
          (actOn language.key action collectors).events
          (∃ outcome, (actOn language.key action collectors).ending = .finished outcome) := by
      intro action haction
      simp only [actOn, hfind]
      refine ⟨haction.isPrefix, ?_⟩
      rintro ⟨outcome, houtcome⟩
      refine haction.all ?_
      cases hresult : (action c).result with
      | error error => simp [hresult] at houtcome
      | ok other => exact ⟨other, rfl⟩
    cases b with
    | analyzerOutputs =>
      exact hact (reportsInvalid_importAnalyzerOutputs language context c)
    | coverage scope =>
      have himport := reportsInvalid_importProperties context.module scope
        (CoverageKeys.derive language.key scope).toList c
      rw [CoverageKeys.toList, List.map_map] at himport
      exact hact himport

/-- A sensor that finishes counts what it counts whatever the collectors are. -/
theorem rejected_of_finished {outcome : SensorOutcome}
    (h : ((b.sensor language).action context collectors).ending = .finished outcome) :
    outcome.rejected = b.rejected language context := by
  cases hc : collectors.get? language.key with
  | none =>
    rw [b.action_of_get?_eq_none language context collectors hc] at h
    cases h
  | some c =>
    rw [(b.action_eq context hc).1] at h
    cases hanswer : (c.contributeAll (b.contributions language context)).1 with
    | error error => simp [hanswer, Ending.ofAnswer] at h
    | ok n =>
      rw [hanswer] at h
      rw [← Ending.finished.inj h]

theorem rejected_coverage (scope : TestScope) :
    (coverage scope).rejected language context
      = context.module.invalidCount ((coverage scope).sources language) := by
  have hproperty : ∀ property, context.module.rejections property
      = (context.module.invalidEntries ⟨property, id⟩).length := by
    intro property
    rw [Module.rejections, snd_normalizeAll]
    rfl
  rw [rejected, CoverageKeys.toList, List.map_map, sources, Module.invalidCount, List.map_map]
  refine congrArg List.sum (List.map_congr_left fun tool _ => ?_)
  show context.module.rejections ((CoverageKeys.derive language.key scope).get tool) = _
  rw [CoverageKeys.get_derive, hproperty]
  rfl

end BuiltIn

/-- **What the built-in sensors report and count.** Whatever the module and the
collectors are, a sensor of a registered language that finishes has reported every
invalid entry of the properties that it reads, and nothing else as rejected. The
sensors of coverage reports count these entries in their outcome. The sensor of
analyzer outputs counts none of them. -/
theorem Sensor.rejections_reported {table : LanguageTable} {key : String}
    {sensors : List Sensor} (h : Sensor.forLanguage table key = .ok sensors) :
    ∃ language, table.language key = .ok language
      ∧ sensors = BuiltIn.all.map (BuiltIn.sensor language)
      ∧ ∀ (b : BuiltIn) (context : SensorContext) (collectors : Collectors)
          (outcome : SensorOutcome),
        let effect := (b.sensor language).action context collectors
        let invalid := context.module.invalidCount (b.sources language)
        effect.ending = .finished outcome →
          rejections effect.events = context.module.rejectionsOf (b.sources language)
            ∧ (rejections effect.events).length = invalid
            ∧ outcome.rejected = if b = .analyzerOutputs then 0 else invalid := by
  obtain ⟨language, hlanguage, rfl⟩ := BuiltIn.exists_of_forLanguage h
  refine ⟨language, hlanguage, rfl, ?_⟩
  intro b context collectors outcome effect invalid hfinished
  have hreported := (b.rejections_action language context collectors).all
    ⟨outcome, hfinished⟩
  refine ⟨hreported, ?_, ?_⟩
  · rw [hreported, length_rejectionsOf]
  · rw [b.rejected_of_finished language context collectors hfinished]
    cases b with
    | analyzerOutputs => rfl
    | coverage scope => exact BuiltIn.rejected_coverage language context scope

/-- One of two entries cannot be normalized. -/
theorem Sensor.rejections_reported_one_of_two :
    let settings : Settings :=
      .ofPairs [("sonar.cs.opencover.reportsPaths", "../../a.xml, b.xml")]
    let context : SensorContext :=
      ⟨⟨"app", .ofText "/repo", settings, ["cs"]⟩, fun _ => false⟩
    ∃ sensors language, Sensor.forLanguage .builtin "cs" = .ok sensors
      ∧ LanguageTable.builtin.language "cs" = .ok language
      ∧ let effect := ((BuiltIn.coverage .unit).sensor language).action context
            (.ofCollector (.forLanguage "cs"))
        effect.ending = .finished ⟨1, 1⟩ ∧ (rejections effect.events).length = 1 := by
  intro settings context
  have hlanguage : LanguageTable.builtin.language "cs" = .ok ⟨"cs", "C#"⟩ := by decide
  have hsensors := BuiltIn.forLanguage_eq hlanguage
  obtain ⟨language, hfound, -, hreported⟩ := Sensor.rejections_reported hsensors
  obtain rfl := Except.ok.inj (hlanguage.symm.trans hfound)
  have hfinished : (((BuiltIn.coverage .unit).sensor ⟨"cs", "C#"⟩).action context
      (.ofCollector (.forLanguage "cs"))).ending = .finished ⟨1, 1⟩ := by decide +kernel
  obtain ⟨-, hlength, hcounted⟩ := hreported _ context _ _ hfinished
  exact ⟨_, _, hsensors, hfound, hfinished, hlength.trans hcounted.symm⟩

/-- A report file of the analyzer that cannot be normalized is reported, but the outcome
counts no rejected entry. -/
theorem Sensor.rejection_not_counted :
    let language : LanguageInfo := ⟨"cs", "C#"⟩
    let settings : Settings :=
      .ofPairs [("sonar.cs.roslyn.reportFilePaths", "../../x.json")]
    let module : Module := ⟨"app", .ofText "/repo", settings, ["cs"]⟩
    let effect := (Sensor.properties language).action ⟨module, fun _ => false⟩
      (.ofCollector (.forLanguage "cs"))
    LanguageTable.builtin.language "cs" = .ok language
      ∧ module.invalidCount (BuiltIn.analyzerOutputs.sources language) = 1
      ∧ (rejections effect.events).length = 1
      ∧ effect.ending = .finished ⟨0, 0⟩ := by
  decide +kernel

end CoverageRegistry
