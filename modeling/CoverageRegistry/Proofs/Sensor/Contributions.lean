import CoverageRegistry.Proofs.Collector.Open
import CoverageRegistry.Proofs.Path.StackMachine
import CoverageRegistry.Sensor.Analyzer

/-!
# What the built-in sensors contribute

A built-in sensor reads the settings of a module and makes a list of contributions,
`BuiltIn.contributions`, that depends on nothing else, until one is refused
(`BuiltIn.action_eq`). No two sensors contribute to one bucket
(`BuiltIn.offers_of_ne_owner`), which is why their order does not matter.
-/

namespace CoverageRegistry

/-! ## The built-in sensors -/

/-- The built-in sensors of a language. -/
inductive BuiltIn where
  | analyzerOutputs
  | coverage (scope : TestScope)
  deriving DecidableEq

/-- The entries of a property that have a normal form, resolved against the base
directory of the module. -/
def Module.normalized (module : Module) (property : String) : List Path :=
  (module.settings.list property).filterMap fun raw =>
    (normalize raw module.baseDir).toOption

/-- The number of entries of a property that have no normal form. -/
def Module.rejections (module : Module) (property : String) : Nat :=
  (normalizeAll (module.settings.list property) module.baseDir).2.length

/-- The output directories of the analyzer that exist below the listed projects. -/
def SensorContext.outputDirs (context : SensorContext) (language : LanguageInfo) :
    List Path :=
  ((context.module.settings.list language.projectOutPathsKey).filterMap fun raw =>
    (normalize (raw ++ "/" ++ language.analyzerOutputDir)
      context.module.baseDir).toOption).filter context.isDirectory

theorem isNormal_of_toOption {raw : String} {base p : Path}
    (h : (normalize raw base).toOption = some p) : p.IsNormal := by
  cases hn : normalize raw base with
  | error cause => rw [hn] at h; cases h
  | ok q =>
    rw [hn] at h
    obtain rfl : q = p := Option.some.inj h
    exact isNormal_of_normalize hn

theorem isNormal_of_mem_normalized {module : Module} {property : String} {p : Path}
    (h : p ∈ module.normalized property) : p.IsNormal := by
  obtain ⟨raw, -, hraw⟩ := List.mem_filterMap.mp h
  exact isNormal_of_toOption hraw

theorem isNormal_of_mem_outputDirs {context : SensorContext} {language : LanguageInfo}
    {p : Path} (h : p ∈ context.outputDirs language) : p.IsNormal := by
  obtain ⟨raw, -, hraw⟩ := List.mem_filterMap.mp (List.mem_filter.mp h).1
  exact isNormal_of_toOption hraw

/-- A contribution that is made only for a list that is not empty. -/
def unlessEmpty {α : Type} (given : List α) (x : Contribution) :
    List Contribution :=
  if given.isEmpty then [] else [x]

theorem mem_unlessEmpty {α : Type} {given : List α} {x y : Contribution}
    (h : y ∈ unlessEmpty given x) : y = x := by
  unfold unlessEmpty at h
  split at h
  · cases h
  · exact List.mem_singleton.mp h

theorem flatMap_unlessEmpty {α : Type} {given : List α} {x : Contribution}
    (h : given = [] → x.items = []) (key : BucketKey) :
    (unlessEmpty given x).flatMap (Contribution.offers key) = x.offers key := by
  unfold unlessEmpty
  split
  · rename_i hgiven
    rw [Contribution.offers, h (List.isEmpty_iff.mp hgiven), ite_self]
    rfl
  · exact List.flatMap_singleton _ _

namespace BuiltIn

/-- The built-in sensors, in their usual order. -/
def all : List BuiltIn := .analyzerOutputs :: TestScope.all.map .coverage

theorem nodup_all : all.Nodup := by decide

/-- The sensor for a language. -/
def sensor (language : LanguageInfo) : BuiltIn → Sensor
  | analyzerOutputs => .properties language
  | coverage scope => .coverage language scope

theorem forLanguage_eq {table : LanguageTable} {language : String} {info : LanguageInfo}
    (h : table.language language = .ok info) :
    Sensor.forLanguage table language = .ok (all.map (sensor info)) := by
  rw [Sensor.forLanguage, h]
  rfl

theorem exists_of_forLanguage {table : LanguageTable} {language : String}
    {sensors : List Sensor} (h : Sensor.forLanguage table language = .ok sensors) :
    ∃ info, table.language language = .ok info ∧ sensors = all.map (sensor info) := by
  cases hinfo : table.language language with
  | error error =>
    rw [Sensor.forLanguage, hinfo] at h
    cases h
  | ok info =>
    rw [forLanguage_eq hinfo] at h
    exact ⟨info, rfl, (Except.ok.inj h).symm⟩

variable (language : LanguageInfo) (context : SensorContext)

/-- The contribution that the coverage sensor makes for a property. It is made also
where the property lists only entries without a normal form. -/
def propertyContribution (module : Module) (scope : TestScope)
    (entry : CoverageTool × String) : Contribution :=
  .modulePaths module.key entry.1.reportKind (some scope) (module.normalized entry.2)

/-- The report files of the analyzer, with their module. -/
def roslynReports : List RoslynReport :=
  (context.module.normalized language.roslynReportPathsKey).map
    fun path => ⟨context.module.key, path⟩

/-- The contributions of a sensor. -/
def contributions : BuiltIn → List Contribution
  | analyzerOutputs =>
      unlessEmpty (context.outputDirs language)
          (.protobufDirs (context.outputDirs language))
        ++ unlessEmpty (roslynReports language context)
          (.roslynReports (roslynReports language context))
  | coverage scope =>
      (CoverageKeys.derive language.key scope).toList.flatMap fun entry =>
        unlessEmpty (context.module.settings.list entry.2)
          (propertyContribution context.module scope entry)

/-- The number of entries that a sensor reports as rejected. -/
def rejected : BuiltIn → Nat
  | analyzerOutputs => 0
  | coverage scope =>
      ((CoverageKeys.derive language.key scope).toList.map fun entry =>
        context.module.rejections entry.2).sum

/-- A contribution of a sensor is one of these. -/
theorem cases_contributions {b : BuiltIn} {x : Contribution}
    (h : x ∈ b.contributions language context) :
    (b = analyzerOutputs ∧ (x = .protobufDirs (context.outputDirs language)
        ∨ x = .roslynReports (roslynReports language context)))
      ∨ ∃ scope entry, b = coverage scope
        ∧ x = propertyContribution context.module scope entry := by
  cases b with
  | analyzerOutputs =>
    refine .inl ⟨rfl, ?_⟩
    exact (List.mem_append.mp h).imp mem_unlessEmpty
      mem_unlessEmpty
  | coverage scope =>
    obtain ⟨entry, -, hx⟩ := List.mem_flatMap.mp h
    exact .inr ⟨scope, entry, rfl, mem_unlessEmpty hx⟩

theorem admissible_contributions {b : BuiltIn} {x : Contribution}
    (h : x ∈ b.contributions language context) : x.target.Admissible := by
  rcases cases_contributions language context h with ⟨-, rfl | rfl⟩ | ⟨scope, entry, -, rfl⟩
  · exact BucketKey.admissible_protobuf
  · exact BucketKey.admissible_roslyn
  · exact BucketKey.admissible_coverage entry.1 scope

/-- Everything that a sensor contributes has a normal path. -/
theorem isNormal_of_mem_items {b : BuiltIn} {x : Contribution} {item : Item}
    (h : x ∈ b.contributions language context) (hitem : item ∈ x.items) :
    item.path.IsNormal := by
  rcases cases_contributions language context h with
    ⟨-, rfl | rfl⟩ | ⟨scope, entry, -, rfl⟩
  · obtain ⟨path, hpath, rfl⟩ := List.mem_map.mp hitem
    exact isNormal_of_mem_outputDirs hpath
  · obtain ⟨report, hreport, rfl⟩ := List.mem_map.mp hitem
    obtain ⟨path, hpath, rfl⟩ := List.mem_map.mp hreport
    exact isNormal_of_mem_normalized hpath
  · obtain ⟨path, hpath, rfl⟩ := List.mem_map.mp hitem
    exact isNormal_of_mem_normalized hpath

/-- The report files of the analyzer come with a module. -/
theorem tagged_contributions {b : BuiltIn} {x : Contribution}
    (h : x ∈ b.contributions language context) : x.Tagged := by
  intro htarget item hitem
  rcases cases_contributions language context h with
    ⟨-, rfl | rfl⟩ | ⟨scope, entry, -, rfl⟩
  · cases htarget
  · obtain ⟨report, -, rfl⟩ := List.mem_map.mp hitem
    rfl
  · have hscope : some scope = none := congrArg BucketKey.scope htarget
    cases hscope

/-- The sensor that contributes to a bucket. -/
def owner (key : BucketKey) : BuiltIn :=
  match key.scope with
  | none => .analyzerOutputs
  | some scope => .coverage scope

theorem owner_target {b : BuiltIn} {x : Contribution}
    (h : x ∈ b.contributions language context) : owner x.target = b := by
  rcases cases_contributions language context h with
    ⟨rfl, rfl | rfl⟩ | ⟨scope, entry, rfl, rfl⟩ <;> rfl

/-- The items that a sensor offers to a bucket. -/
def offers (key : BucketKey) (b : BuiltIn) : List Item :=
  (b.contributions language context).flatMap (Contribution.offers key)

/-- A sensor offers nothing to the bucket of another one. -/
theorem offers_of_ne_owner {key : BucketKey} {b : BuiltIn} (h : b ≠ owner key) :
    b.offers language context key = [] := by
  refine List.flatMap_eq_nil_iff.mpr fun x hx => ?_
  have hne : x.target ≠ key := by
    rintro rfl
    exact h (owner_target language context hx).symm
  exact if_neg hne

/-- Whatever the order of the sensors, a bucket gets what its own one offers. -/
theorem flatMap_offers {plans : List BuiltIn} (key : BucketKey) (hnodup : plans.Nodup)
    (howner : owner key ∈ plans) :
    plans.flatMap (offers language context key)
      = (owner key).offers language context key := by
  -- the owner stands once among the sensors, and those around it offer nothing
  obtain ⟨before, after, rfl⟩ := List.append_of_mem howner
  have hothers : ∀ b ∈ before ++ after, b ≠ owner key := by
    rintro b hb rfl
    exact (List.nodup_middle.mp hnodup).notMem hb
  have hbefore : before.flatMap (offers language context key) = [] :=
    List.flatMap_eq_nil_iff.mpr fun b hb =>
      offers_of_ne_owner language context (hothers b (List.mem_append_left _ hb))
  have hafter : after.flatMap (offers language context key) = [] :=
    List.flatMap_eq_nil_iff.mpr fun b hb =>
      offers_of_ne_owner language context (hothers b (List.mem_append_right _ hb))
  rw [List.flatMap_append, List.flatMap_cons, hbefore, hafter, List.nil_append,
    List.append_nil]

/-! ## What a bucket is offered -/

theorem flatMap_property (key : BucketKey) (scope : TestScope)
    (entry : CoverageTool × String) :
    (unlessEmpty (context.module.settings.list entry.2)
        (propertyContribution context.module scope entry)).flatMap (Contribution.offers key)
      = (propertyContribution context.module scope entry).offers key := by
  refine flatMap_unlessEmpty (fun hnone => ?_) key
  simp [propertyContribution, Contribution.items, Module.normalized, hnone]

theorem offers_coverage (tool : CoverageTool) (scope : TestScope) :
    (coverage scope).offers language context (.coverage tool scope)
      = (context.module.normalized (coverageKey language.key scope tool)).map
          fun path => ⟨path, some context.module.key⟩ := by
  rw [offers, contributions, List.flatMap_assoc]
  simp only [flatMap_property]
  cases tool <;>
    simp [propertyContribution, CoverageKeys.toList, CoverageTool.all,
      CoverageTool.reportKind, Contribution.offers, Contribution.target,
      Contribution.items, BucketKey.coverage]

theorem offers_analyzer (key : BucketKey) :
    analyzerOutputs.offers language context key
      = (Contribution.protobufDirs (context.outputDirs language)).offers key
        ++ (Contribution.roslynReports (roslynReports language context)).offers key := by
  rw [offers, contributions, List.flatMap_append, flatMap_unlessEmpty,
    flatMap_unlessEmpty]
  · intro hnone
    rw [Contribution.items, hnone, List.map_nil]
  · intro hnone
    rw [Contribution.items, hnone, List.map_nil]

theorem offers_protobuf :
    analyzerOutputs.offers language context .protobuf
      = (context.outputDirs language).map fun path => ⟨path, none⟩ := by
  simp [offers_analyzer, Contribution.offers, Contribution.target, Contribution.items,
    BucketKey.protobuf, BucketKey.roslyn]

theorem offers_roslyn :
    analyzerOutputs.offers language context .roslyn
      = (context.module.normalized language.roslynReportPathsKey).map
          fun path => ⟨path, some context.module.key⟩ := by
  simp [offers_analyzer, roslynReports, Contribution.offers, Contribution.target,
    Contribution.items, BucketKey.protobuf, BucketKey.roslyn]

end BuiltIn

/-! ## The actions of the sensors -/

/-- An import makes contributions until one is refused; its outcome tells how many
paths were new and how many entries were rejected. -/
def Makes (answer : Collector.Answer (Except RegistryError SensorOutcome))
    (c : Collector) (xs : List Contribution) (rejected : Nat) : Prop :=
  answer.result = (c.contributeAll xs).1.map (⟨·, rejected⟩)
    ∧ answer.collector = (c.contributeAll xs).2

section Makes

variable (c : Collector)

theorem makes_importProperty (module : Module) (scope : TestScope) (tool : CoverageTool)
    (property : String) :
    Makes (importProperty module scope tool property c) c
      (unlessEmpty (module.settings.list property)
        (BuiltIn.propertyContribution module scope (tool, property)))
      (module.rejections property) := by
  unfold importProperty unlessEmpty
  by_cases hempty : (module.settings.list property).isEmpty = true
  · rw [if_pos hempty, if_pos hempty, Module.rejections, List.isEmpty_iff.mp hempty]
    exact ⟨rfl, rfl⟩
  · rw [if_neg hempty, if_neg hempty, Makes, Collector.contributeAll_singleton]
    exact ⟨rfl, rfl⟩

theorem makes_importProperties (module : Module) (scope : TestScope)
    (entries : List (CoverageTool × String)) :
    ∀ c : Collector, Makes (importProperties module scope entries c) c
      (entries.flatMap fun entry => unlessEmpty (module.settings.list entry.2)
        (BuiltIn.propertyContribution module scope entry))
      (entries.map fun entry => module.rejections entry.2).sum := by
  induction entries with
  | nil => intro c; exact ⟨rfl, rfl⟩
  | cons entry rest ih =>
    intro c
    obtain ⟨tool, property⟩ := entry
    obtain ⟨hfirst, hcollector⟩ := makes_importProperty c module scope tool property
    rw [Makes, importProperties, List.flatMap_cons, Collector.contributeAll_append]
    cases hresult : (c.contributeAll (unlessEmpty (module.settings.list property)
        (BuiltIn.propertyContribution module scope (tool, property)))).1 with
    | error error =>
      rw [hresult] at hfirst
      simp only [hfirst, hcollector, Except.map, and_self]
    | ok n =>
      rw [hresult] at hfirst
      obtain ⟨hrest, hcollectors⟩ :=
        ih (importProperty module scope tool property c).collector
      rw [hcollector] at hrest hcollectors
      simp only [hfirst, hcollector, Except.map, hrest, hcollectors, and_true]
      -- the counts of the first property and of the others are added
      rcases (Collector.contributeAll _ _).1 with error | m <;> rfl

theorem offerUnlessEmpty_eq {α : Type} (items : List α) (make : List α → Contribution) :
    ((offerUnlessEmpty items (fun items => (make items).add c) c).result,
        (offerUnlessEmpty items (fun items => (make items).add c) c).collector)
      = c.contributeAll (unlessEmpty items (make items)) := by
  unfold offerUnlessEmpty unlessEmpty
  split
  · rfl
  · rw [Collector.contributeAll_singleton]

/-- The import of analyzer outputs: the directories are offered first, and the files
only where these are not refused. -/
theorem importAnalyzerOutputs_eq {c : Collector} {language : LanguageInfo}
    {context : SensorContext} {dirs files : Collector.Answer (Except RegistryError Nat)}
    (hdirs : offerUnlessEmpty (context.outputDirs language) c.addProtobufDirs c = dirs)
    (hfiles : offerUnlessEmpty (BuiltIn.roslynReports language context)
      dirs.collector.addRoslynReports dirs.collector = files) :
    (importAnalyzerOutputs language context c).result
        = (match dirs.result with
          | .error error => .error error
          | .ok n => files.result.map fun m => ⟨n + m, 0⟩)
      ∧ (importAnalyzerOutputs language context c).collector
        = (match dirs.result with
          | .error _ => dirs.collector
          | .ok _ => files.collector) := by
  let configuration : AnalyzerConfiguration :=
    ⟨language, context.module.settings, context.module.baseDir⟩
  have hpaths : configuration.protobufReportPaths context.isDirectory
      = context.outputDirs language := rfl
  have hreports : (configuration.roslynReportPaths.map
      fun path => (⟨context.module.key, path⟩ : RoslynReport))
        = BuiltIn.roslynReports language context := rfl
  simp only [importAnalyzerOutputs, configuration] at hpaths hreports ⊢
  simp only [hpaths, hreports, hdirs, hfiles]
  cases dirs.result with
  | error error => exact ⟨rfl, rfl⟩
  | ok n =>
    simp only
    cases files.result with
    | error error => exact ⟨rfl, rfl⟩
    | ok m => exact ⟨rfl, rfl⟩

theorem makes_importAnalyzerOutputs (language : LanguageInfo) (context : SensorContext) :
    Makes (importAnalyzerOutputs language context c) c
      (BuiltIn.analyzerOutputs.contributions language context) 0 := by
  obtain ⟨dirs, hdirs⟩ : ∃ dirs, offerUnlessEmpty (context.outputDirs language)
      c.addProtobufDirs c = dirs := ⟨_, rfl⟩
  obtain ⟨files, hfiles⟩ : ∃ files, offerUnlessEmpty
      (BuiltIn.roslynReports language context) dirs.collector.addRoslynReports
      dirs.collector = files := ⟨_, rfl⟩
  have hfirst : c.contributeAll (unlessEmpty (context.outputDirs language)
      (.protobufDirs (context.outputDirs language))) = (dirs.result, dirs.collector) := by
    rw [← hdirs]
    exact (offerUnlessEmpty_eq c _ .protobufDirs).symm
  have hsecond : dirs.collector.contributeAll
      (unlessEmpty (BuiltIn.roslynReports language context)
        (.roslynReports (BuiltIn.roslynReports language context)))
        = (files.result, files.collector) := by
    rw [← hfiles]
    exact (offerUnlessEmpty_eq dirs.collector _ .roslynReports).symm
  obtain ⟨hresult, hcollector⟩ := importAnalyzerOutputs_eq hdirs hfiles
  rw [Makes, hresult, hcollector, BuiltIn.contributions,
    Collector.contributeAll_append, hfirst]
  cases dirs.result with
  | error error => exact ⟨rfl, rfl⟩
  | ok n =>
    simp only [hsecond, and_true]
    cases files.result <;> rfl

end Makes

/-- How an action ends whose contributions are answered. -/
def Ending.ofAnswer (rejected : Nat) : Except RegistryError Nat → Ending
  | .ok contributed => .finished ⟨contributed, rejected⟩
  | .error error => .failed error

namespace BuiltIn

variable (b : BuiltIn) {language : LanguageInfo} (context : SensorContext)
  {collectors : Collectors} {c : Collector}

/-- **A built-in sensor makes its contributions**, to the collector of its language,
until one is refused; it leaves the other collectors. -/
theorem action_eq (hc : collectors.get? language.key = some c) :
    ((b.sensor language).action context collectors).ending
        = .ofAnswer (b.rejected language context)
          (c.contributeAll (b.contributions language context)).1
      ∧ ((b.sensor language).action context collectors).collectors
        = collectors.insert language.key
          (c.contributeAll (b.contributions language context)).2 := by
  have hfind : collectors.find language.key = .ok c := by
    rw [Collectors.find, hc]
  have hact : ∀ {action : Collector → Collector.Answer (Except RegistryError
      SensorOutcome)}, Makes (action c) c (b.contributions language context)
        (b.rejected language context) →
      (actOn language.key action collectors).ending
          = .ofAnswer (b.rejected language context)
            (c.contributeAll (b.contributions language context)).1
        ∧ (actOn language.key action collectors).collectors
          = collectors.insert language.key
            (c.contributeAll (b.contributions language context)).2 := by
    rintro action ⟨hresult, hcollector⟩
    simp only [actOn, hfind, hresult, hcollector, and_true]
    cases (c.contributeAll (b.contributions language context)).1 <;> rfl
  cases b with
  | analyzerOutputs => exact hact (makes_importAnalyzerOutputs c language context)
  | coverage scope =>
    exact hact (makes_importProperties context.module scope
      (CoverageKeys.derive language.key scope).toList c)

end BuiltIn

end CoverageRegistry
