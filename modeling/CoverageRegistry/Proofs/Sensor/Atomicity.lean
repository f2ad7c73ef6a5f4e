import CoverageRegistry.Proofs.Collector.Growth
import CoverageRegistry.Proofs.Path.Noise
import CoverageRegistry.Proofs.Report.Outcome
import CoverageRegistry.Proofs.Sensor.Rejection
import CoverageRegistry.Proofs.TextMap

/-!
# A sensor runs as a whole or not at all

A built-in sensor makes up to four contributions to one collector, and each of them may be
refused. Whether the collector is open is the same question for all of them, since
contributing does not seal it: so either none is refused, or the first one is and nothing
was contributed (`Sensor.execution_atomic`). This holds of collectors in any state, also
of those that no run leads to.

What counts as something to contribute differs between the sensors (`BuiltIn.HasOffer`).
The sensors of coverage reports contribute for a property that lists entries, though none
of them may have a normal form; the sensor of analyzer outputs contributes only paths.
-/

namespace CoverageRegistry

/-! ## Entries that are not blank -/

/-- A property has an entry that is not blank. -/
def Settings.HasEntry (settings : Settings) (property : String) : Prop :=
  ∃ text, settings.get? property = some text
    ∧ ∃ piece ∈ text.toList.splitOn ',', ∃ c ∈ piece, Text.isBlank c = false

theorem Settings.list_ne_nil_iff {settings : Settings} {property : String} :
    settings.list property ≠ [] ↔ settings.HasEntry property := by
  rw [list, HasEntry]
  cases settings.get? property with
  | none => simp
  | some text =>
    have hentries : PathList.entries text ≠ []
        ↔ ∃ piece ∈ text.toList.splitOn ',', Text.trimList piece ≠ [] := by
      simp [PathList.entries, PathList.entriesOf, List.filter_eq_nil_iff]
    simp only [Option.map_some, Option.getD_some, hentries, Ne, Text.trimList_eq_nil_iff,
      Option.some.injEq, exists_eq_left']
    simp

/-! ## What entries lead to -/

theorem unlessEmpty_ne_nil_iff {α : Type} {given : List α} {x : Contribution} :
    unlessEmpty given x ≠ [] ↔ given ≠ [] := by
  cases given <;> simp [unlessEmpty]

theorem toOption_eq_some_iff {ε α : Type} {result : Except ε α} {value : α} :
    result.toOption = some value ↔ result = .ok value := by
  cases result <;> simp [Except.toOption]

theorem outputDirs_ne_nil_iff {language : LanguageInfo} {context : SensorContext} :
    context.outputDirs language ≠ []
      ↔ ∃ raw ∈ context.module.settings.list language.projectOutPathsKey, ∃ dir,
        normalize (raw ++ "/" ++ language.analyzerOutputDir) context.module.baseDir = .ok dir
          ∧ context.isDirectory dir = true := by
  simp only [Ne, List.eq_nil_iff_forall_not_mem, not_forall, not_not,
    SensorContext.outputDirs, List.mem_filter, List.mem_filterMap, toOption_eq_some_iff]
  constructor
  · rintro ⟨dir, ⟨raw, hraw, hdir⟩, hexists⟩
    exact ⟨raw, hraw, dir, hdir, hexists⟩
  · rintro ⟨raw, hraw, dir, hdir, hexists⟩
    exact ⟨dir, ⟨raw, hraw, hdir⟩, hexists⟩

theorem normalized_ne_nil_iff {module : Module} {property : String} :
    module.normalized property ≠ []
      ↔ ∃ raw ∈ module.settings.list property, ∃ path,
        normalize raw module.baseDir = .ok path := by
  simp only [Ne, List.eq_nil_iff_forall_not_mem, not_forall, not_not, Module.normalized,
    List.mem_filterMap, toOption_eq_some_iff]
  constructor
  · rintro ⟨path, raw, hraw, hpath⟩
    exact ⟨raw, hraw, path, hpath⟩
  · rintro ⟨raw, hraw, path, hpath⟩
    exact ⟨path, raw, hraw, hpath⟩

/-! ## What a sensor contributes -/

namespace BuiltIn

/-- The buckets of a sensor. -/
def buckets : BuiltIn → List BucketKey
  | analyzerOutputs => [.protobuf, .roslyn]
  | coverage scope => CoverageTool.all.map fun tool => .coverage tool scope

/-- A sensor has something to contribute: for coverage reports, one of the properties has
an entry that is not blank; for analyzer outputs, there is an output directory, or an
entry for a report file has a normal form. -/
def HasOffer (language : LanguageInfo) (context : SensorContext) : BuiltIn → Prop
  | analyzerOutputs =>
      (∃ raw ∈ context.module.settings.list language.projectOutPathsKey, ∃ dir,
          normalize (raw ++ "/" ++ language.analyzerOutputDir) context.module.baseDir = .ok dir
            ∧ context.isDirectory dir = true)
        ∨ ∃ raw ∈ context.module.settings.list language.roslynReportPathsKey, ∃ path,
          normalize raw context.module.baseDir = .ok path
  | coverage scope =>
      ∃ tool, context.module.settings.HasEntry (coverageKey language.key scope tool)

variable {language : LanguageInfo} {context : SensorContext} {b : BuiltIn}

theorem target_mem_buckets {x : Contribution} (h : x ∈ b.contributions language context) :
    x.target ∈ b.buckets := by
  rcases cases_contributions language context h with
    ⟨rfl, rfl | rfl⟩ | ⟨scope, entry, rfl, rfl⟩
  · exact List.mem_cons_self
  · exact List.mem_cons_of_mem _ List.mem_cons_self
  · exact List.mem_map.mpr ⟨entry.1, entry.1.mem_all, rfl⟩

/-- A sensor makes a contribution exactly when it has something to contribute. -/
theorem contributions_ne_nil_iff :
    b.contributions language context ≠ [] ↔ b.HasOffer language context := by
  cases b with
  | analyzerOutputs =>
    rw [contributions, HasOffer, Ne, List.append_eq_nil_iff, not_and_or]
    refine or_congr ?_ ?_
    · exact unlessEmpty_ne_nil_iff.trans outputDirs_ne_nil_iff
    · rw [← normalized_ne_nil_iff]
      exact unlessEmpty_ne_nil_iff.trans (by simp [roslynReports])
  | coverage scope =>
    simp only [contributions, HasOffer, CoverageKeys.toList, List.flatMap_map, Ne,
      List.flatMap_eq_nil_iff, not_forall, CoverageKeys.get_derive]
    constructor
    · rintro ⟨tool, -, htool⟩
      exact ⟨tool, Settings.list_ne_nil_iff.mp (unlessEmpty_ne_nil_iff.mp htool)⟩
    · rintro ⟨tool, htool⟩
      refine ⟨tool, tool.mem_all, ?_⟩
      exact unlessEmpty_ne_nil_iff.mpr (Settings.list_ne_nil_iff.mpr htool)

/-! ## The two states of the collector -/

variable (b) (context) {collectors : Collectors} {c : Collector}

/-- With a sealed collector, a sensor fails at its first contribution, if it makes one. -/
theorem action_of_isSealed (hc : collectors.get? language.key = some c)
    (hsealed : c.isSealed = true) :
    let effect := (b.sensor language).action context collectors
    effect.collectors = collectors
      ∧ (b.HasOffer language context
          ∧ (∃ key ∈ b.buckets, effect.ending = .failed (.registrySealed key.kind key.scope))
        ∨ ¬ b.HasOffer language context
          ∧ effect.ending = .finished ⟨0, b.rejected language context⟩) := by
  intro effect
  obtain ⟨hending, hcollectors⟩ := b.action_eq context hc
  have hadmissible : ∀ x ∈ b.contributions language context, x.target.Admissible :=
    fun _ hx => admissible_contributions language context hx
  have htargets : ∀ x ∈ b.contributions language context, x.target ∈ b.buckets :=
    fun _ hx => target_mem_buckets hx
  have hoffer : b.contributions language context ≠ [] ↔ _ := contributions_ne_nil_iff
  generalize b.contributions language context = xs
    at hending hcollectors hadmissible htargets hoffer
  rw [Collector.contributeAll_of_isSealed hsealed hadmissible] at hending hcollectors
  refine ⟨hcollectors.trans (TextMap.insert_of_get? hc), ?_⟩
  cases xs with
  | nil => exact .inr ⟨fun h => hoffer.mpr h rfl, hending⟩
  | cons x xs =>
    exact .inl ⟨hoffer.mp (by simp), x.target, htargets x List.mem_cons_self, hending⟩

/-- With an open collector, a sensor makes all its contributions. -/
theorem action_of_isOpen (hc : collectors.get? language.key = some c)
    (hopen : c.isSealed = false) :
    let effect := (b.sensor language).action context collectors
    ∃ n after, effect.ending = .finished ⟨n, b.rejected language context⟩
      ∧ effect.collectors = collectors.insert language.key after
      ∧ Collector.Grown b.buckets n c after := by
  intro effect
  obtain ⟨hending, hcollectors⟩ := b.action_eq context hc
  obtain ⟨n, hresult, hgrown⟩ := Collector.grown_contributeAll hopen fun x hx =>
    ⟨admissible_contributions language context hx, target_mem_buckets (b := b) hx⟩
  rw [hresult] at hending
  exact ⟨n, _, hending, hcollectors, hgrown⟩

end BuiltIn

/-- **Execution is atomic and stays in the sensor's buckets**, for the sensors of a
registered language, whatever the module and the collectors are. A sensor fails for want
of the language exactly when there is no collector for it, and for a sealed registry
exactly when the collector is sealed and the sensor has something to contribute. It fails
for no other reason, it always ends, and where it fails all collectors are as they were.
Where it finishes, the collector of the language has grown in the sensor's buckets only,
by as many paths as the outcome tells, and the other collectors are as they were. -/
theorem Sensor.execution_atomic {table : LanguageTable} {key : String}
    {sensors : List Sensor} (h : Sensor.forLanguage table key = .ok sensors) :
    ∃ language, table.language key = .ok language
      ∧ sensors = BuiltIn.all.map (BuiltIn.sensor language)
      ∧ ∀ (b : BuiltIn) (context : SensorContext) (collectors : Collectors),
        let effect := (b.sensor language).action context collectors
        let found := collectors.get? key
        (effect.ending = .failed (.unknownLanguage key) ↔ found = none)
          ∧ ((∃ bucket ∈ b.buckets,
                effect.ending = .failed (.registrySealed bucket.kind bucket.scope))
              ↔ ∃ c, found = some c ∧ c.isSealed = true ∧ b.HasOffer language context)
          ∧ (∀ error, effect.ending = .failed error →
              effect.collectors = collectors
                ∧ (error = .unknownLanguage key ∨ ∃ bucket ∈ b.buckets,
                  error = .registrySealed bucket.kind bucket.scope))
          ∧ effect.ending ≠ .aborted
          ∧ ∀ outcome, effect.ending = .finished outcome →
              ∃ before after, found = some before
                ∧ effect.collectors = collectors.insert key after
                ∧ Collector.Grown b.buckets outcome.contributed before after := by
  obtain ⟨language, hlanguage, rfl⟩ := BuiltIn.exists_of_forLanguage h
  obtain ⟨-, rfl⟩ := LanguageTable.contains_of_language hlanguage
  refine ⟨language, hlanguage, rfl, ?_⟩
  intro b context collectors effect found
  cases hfound : collectors.get? language.key with
  | none =>
    have heffect := b.action_of_get?_eq_none language context collectors hfound
    simp only [effect, found, heffect, hfound]
    refine ⟨by simp, by simp, ?_, by simp, by simp⟩
    rintro error ⟨⟩
    exact ⟨trivial, .inl rfl⟩
  | some c =>
    cases hsealed : c.isSealed with
    | true =>
      obtain ⟨hcollectors, ⟨hoffer, bucket, hbucket, hending⟩ | ⟨hnone, hending⟩⟩ :=
        b.action_of_isSealed context hfound hsealed
      · simp only [effect, found, hending, hfound, hcollectors]
        refine ⟨by simp, ?_, ?_, by simp, by simp⟩
        · exact ⟨fun _ => ⟨c, rfl, hsealed, hoffer⟩, fun _ => ⟨bucket, hbucket, rfl⟩⟩
        · rintro error ⟨⟩
          exact ⟨trivial, .inr ⟨bucket, hbucket, rfl⟩⟩
      · simp only [effect, found, hending, hfound, hcollectors]
        refine ⟨by simp, by simp [hnone], by simp, by simp, ?_⟩
        rintro outcome ⟨⟩
        exact ⟨c, c, rfl, (TextMap.insert_of_get? hfound).symm, .refl b.buckets c⟩
    | false =>
      obtain ⟨n, after, hending, hcollectors, hgrown⟩ :=
        b.action_of_isOpen context hfound hsealed
      simp only [effect, found, hending, hfound, hcollectors]
      refine ⟨by simp, by simp [hsealed], by simp, by simp, ?_⟩
      rintro outcome ⟨⟩
      exact ⟨c, after, rfl, rfl, hgrown⟩

/-- A sealed collector, and entries that all leave the root: the sensor of coverage reports
fails, the sensor of analyzer outputs has nothing to contribute and finishes. -/
theorem Sensor.execution_atomic_only_invalid :
    let settings : Settings :=
      .ofPairs [("sonar.cs.ncover3.reportsPaths", "../../a.xml"),
        ("sonar.cs.roslyn.reportFilePaths", "../../x.json")]
    let context : SensorContext :=
      ⟨⟨"app", .ofText "/repo", settings, ["cs"]⟩, fun _ => false⟩
    let c := (Collector.forLanguage "cs").sealUp.collector
    let collectors : Collectors := .ofCollector c
    ∃ sensors language, Sensor.forLanguage .builtin "cs" = .ok sensors
      ∧ LanguageTable.builtin.language "cs" = .ok language
      ∧ (∃ bucket ∈ (BuiltIn.coverage .unit).buckets,
          (((BuiltIn.coverage .unit).sensor language).action context collectors).ending
            = .failed (.registrySealed bucket.kind bucket.scope))
      ∧ ∃ before after, collectors.get? "cs" = some before
        ∧ ((BuiltIn.analyzerOutputs.sensor language).action context collectors).collectors
          = collectors.insert "cs" after
        ∧ Collector.Grown BuiltIn.analyzerOutputs.buckets 0 before after := by
  intro settings context c collectors
  have hlanguage : LanguageTable.builtin.language "cs" = .ok ⟨"cs", "C#"⟩ := by decide
  have hsensors := BuiltIn.forLanguage_eq hlanguage
  obtain ⟨language, hfound, -, hexecution⟩ := Sensor.execution_atomic hsensors
  obtain rfl := Except.ok.inj (hlanguage.symm.trans hfound)
  refine ⟨_, _, hsensors, hfound, ?_, ?_⟩
  · refine (hexecution (.coverage .unit) context collectors).2.1.mpr ⟨c, rfl, rfl, ?_⟩
    exact ⟨.ncover3, "../../a.xml", by decide +kernel, "../../a.xml".toList,
      by decide +kernel, 'a', by decide +kernel, by decide⟩
  · have hfinished : ((BuiltIn.analyzerOutputs.sensor ⟨"cs", "C#"⟩).action context
        collectors).ending = .finished ⟨0, 0⟩ := by decide +kernel
    exact (hexecution .analyzerOutputs context collectors).2.2.2.2 _ hfinished

end CoverageRegistry
