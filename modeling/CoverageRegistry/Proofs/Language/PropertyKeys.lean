import CoverageRegistry.Proofs.Collector.Log
import CoverageRegistry.Proofs.Report.Outcome
import CoverageRegistry.Proofs.Sensor.Rejection

/-!
# Property keys are told apart

A property key is the word `sonar`, the key of a language, and an ending that says which
bucket its entries belong to. The key of a language may be any text, with dots, names of
tools or whole endings in it, so a property key is read from the right: no ending is the
end of another one (`BucketKey.eq_of_ending_isSuffix`), hence a property key has one
ending, and what stands in front of it is the language. `property_keys_apart` says what
follows for the keys, and for the properties that are read under any table.
-/

namespace CoverageRegistry

namespace BucketKey

/-- What stands after the language in the name of the property that fills a bucket. -/
def ending (key : BucketKey) : String :=
  match key.kind.coverageTool?, key.scope with
  | some tool, some scope => "." ++ tool.slug ++ scope.keyInfix ++ ".reportsPaths"
  | _, _ =>
    if key.kind = .protobuf then ".analyzer.projectOutPaths" else ".roslyn.reportFilePaths"

/-- The property whose entries belong to a bucket of a language. -/
def property (key : BucketKey) (language : String) : String :=
  keyRoot ++ "." ++ language ++ key.ending

theorem mem_all (key : BucketKey) : key ∈ all :=
  List.count_pos_iff.mp (by rw [count_all]; exact Nat.one_pos)

/-- No ending is the end of another one. -/
theorem eq_of_ending_isSuffix {key other : BucketKey} (hkey : key.Admissible)
    (hother : other.Admissible) (h : key.ending.toList <:+ other.ending.toList) :
    key = other := by
  have hall : ∀ key ∈ all, key.Admissible → ∀ other ∈ all, other.Admissible →
      key.ending.toList <:+ other.ending.toList → key = other := by
    -- there are eighteen keys, each with one ending
    decide +kernel
  exact hall key (mem_all key) hkey other (mem_all other) hother h

/-- A property key has one language and one bucket. -/
theorem property_inj {key other : BucketKey} (hkey : key.Admissible)
    (hother : other.Admissible) {language language' : String} :
    key.property language = other.property language' ↔ language = language' ∧ key = other := by
  constructor
  · intro h
    have hchars : language.toList ++ key.ending.toList
        = language'.toList ++ other.ending.toList := by
      simpa [property] using congrArg String.toList h
    -- both endings end the same text, so the shorter one ends the longer one
    have hends : key = other := by
      rcases List.suffix_or_suffix_of_suffix (List.suffix_append _ _)
        (hchars ▸ List.suffix_append _ _) with hsuffix | hsuffix
      · exact (eq_of_ending_isSuffix hother hkey hsuffix).symm
      · exact eq_of_ending_isSuffix hkey hother hsuffix
    subst hends
    exact ⟨String.toList_inj.mp (List.append_cancel_right hchars), rfl⟩
  · rintro ⟨rfl, rfl⟩
    rfl

theorem property_coverage (language : String) (scope : TestScope) (tool : CoverageTool) :
    (coverage tool scope).property language = (CoverageKeys.derive language scope).get tool := by
  simp [property, ending, coverage, coverageKey, String.append_assoc]

theorem property_protobuf (language : LanguageInfo) :
    protobuf.property language.key = language.projectOutPathsKey := rfl

theorem property_roslyn (language : LanguageInfo) :
    roslyn.property language.key = language.roslynReportPathsKey := rfl

theorem coverage_inj {tool tool' : CoverageTool} {scope scope' : TestScope} :
    coverage tool scope = coverage tool' scope' ↔ scope = scope' ∧ tool = tool' := by
  constructor
  · intro h
    have htool := congrArg (fun key => key.kind.coverageTool?) h
    have hscope := congrArg BucketKey.scope h
    simpa [coverage, and_comm] using And.intro htool hscope
  · rintro ⟨rfl, rfl⟩
    rfl

end BucketKey

/-! ## The properties that are read -/

/-- Under a table, a property is read for a bucket of a language: it is the key of the
tool in the configuration of the scope, or one of the two keys of the analyzer. -/
inductive LanguageTable.Reads (table : LanguageTable) (language : String) :
    BucketKey → String → Prop where
  | reports (tool : CoverageTool) {scope : TestScope} {keys : CoverageKeys}
      (h : table.resolveKeys language scope = .ok keys) :
      Reads table language (.coverage tool scope) (keys.get tool)
  | outputDirs {info : LanguageInfo} (h : table.language language = .ok info) :
      Reads table language .protobuf info.projectOutPathsKey
  | reportFiles {info : LanguageInfo} (h : table.language language = .ok info) :
      Reads table language .roslyn info.roslynReportPathsKey

namespace LanguageTable

variable {table : LanguageTable} {language : String}

theorem eq_derive_of_resolveKeys {scope : TestScope} {keys : CoverageKeys}
    (h : table.resolveKeys language scope = .ok keys) : keys = .derive language scope := by
  cases hknown : table.contains language with
  | true =>
    rw [resolveKeys_of_contains hknown] at h
    exact (Except.ok.inj h).symm
  | false =>
    rw [resolveKeys, configuration_of_not_contains hknown] at h
    cases h

theorem Reads.eq_property {key : BucketKey} {property : String}
    (h : table.Reads language key property) :
    key.Admissible ∧ property = key.property language := by
  cases h with
  | reports tool hkeys =>
    rw [eq_derive_of_resolveKeys hkeys, BucketKey.property_coverage]
    exact ⟨BucketKey.admissible_coverage tool _, rfl⟩
  | outputDirs hinfo =>
    rw [← (contains_of_language hinfo).2]
    exact ⟨BucketKey.admissible_protobuf, rfl⟩
  | reportFiles hinfo =>
    rw [← (contains_of_language hinfo).2]
    exact ⟨BucketKey.admissible_roslyn, rfl⟩

/-- What a built-in sensor of a language reads is read for a bucket of the sensor. -/
theorem Reads.of_mem_sources {info : LanguageInfo} (h : table.language language = .ok info)
    {b : BuiltIn} {source : PathSource} (hsource : source ∈ b.sources info) :
    ∃ key, BuiltIn.owner key = b ∧ table.Reads language key source.property := by
  obtain ⟨hknown, rfl⟩ := contains_of_language h
  cases b with
  | analyzerOutputs =>
    simp only [BuiltIn.sources, List.mem_cons, List.not_mem_nil, or_false] at hsource
    rcases hsource with rfl | rfl
    · exact ⟨.protobuf, rfl, .outputDirs h⟩
    · exact ⟨.roslyn, rfl, .reportFiles h⟩
  | coverage scope =>
    obtain ⟨tool, -, rfl⟩ := List.mem_map.mp hsource
    refine ⟨.coverage tool scope, rfl, ?_⟩
    rw [← CoverageKeys.get_derive]
    exact .reports tool (resolveKeys_of_contains hknown scope)

end LanguageTable

/-- **Property keys never collide**, whatever texts the languages are: two coverage keys
are equal exactly when language, scope and tool are, the two keys of the analyzer tell
the language, and keys of different sorts differ. So under any table a property is read
for one bucket of one language at most. -/
theorem property_keys_apart :
    (∀ (l l' : String) (s s' : TestScope) (t t' : CoverageTool),
        (CoverageKeys.derive l s).get t = (CoverageKeys.derive l' s').get t'
          ↔ l = l' ∧ s = s' ∧ t = t')
      ∧ (∀ a b : LanguageInfo, a.projectOutPathsKey = b.projectOutPathsKey ↔ a.key = b.key)
      ∧ (∀ a b : LanguageInfo,
          a.roslynReportPathsKey = b.roslynReportPathsKey ↔ a.key = b.key)
      ∧ (∀ (l : String) (s : TestScope) (t : CoverageTool) (a b : LanguageInfo),
          (CoverageKeys.derive l s).get t ≠ a.projectOutPathsKey
            ∧ (CoverageKeys.derive l s).get t ≠ b.roslynReportPathsKey
            ∧ a.projectOutPathsKey ≠ b.roslynReportPathsKey)
      ∧ ∀ (table : LanguageTable) (property l l' : String) (key key' : BucketKey),
        table.Reads l key property → table.Reads l' key' property → l = l' ∧ key = key' := by
  refine ⟨fun l l' s s' t t' => ?_, fun a b => ?_, fun a b => ?_, fun l s t a b => ?_, ?_⟩
  · rw [← BucketKey.property_coverage, ← BucketKey.property_coverage,
      BucketKey.property_inj (BucketKey.admissible_coverage t s)
        (BucketKey.admissible_coverage t' s'), BucketKey.coverage_inj]
  · rw [← BucketKey.property_protobuf, ← BucketKey.property_protobuf,
      BucketKey.property_inj BucketKey.admissible_protobuf BucketKey.admissible_protobuf]
    exact and_iff_left rfl
  · rw [← BucketKey.property_roslyn, ← BucketKey.property_roslyn,
      BucketKey.property_inj BucketKey.admissible_roslyn BucketKey.admissible_roslyn]
    exact and_iff_left rfl
  · have hcoverage := BucketKey.admissible_coverage t s
    rw [← BucketKey.property_coverage, ← BucketKey.property_protobuf,
      ← BucketKey.property_roslyn, Ne, Ne, Ne,
      BucketKey.property_inj hcoverage BucketKey.admissible_protobuf,
      BucketKey.property_inj hcoverage BucketKey.admissible_roslyn,
      BucketKey.property_inj BucketKey.admissible_protobuf BucketKey.admissible_roslyn]
    have hscope : ∀ key : BucketKey, key.scope = none → BucketKey.coverage t s ≠ key := by
      rintro key hnone rfl
      cases hnone
    exact ⟨fun h => hscope _ rfl h.2, fun h => hscope _ rfl h.2, fun h => by cases h.2⟩
  · intro table property l l' key key' h h'
    obtain ⟨hkey, hproperty⟩ := h.eq_property
    obtain ⟨hkey', hproperty'⟩ := h'.eq_property
    exact (BucketKey.property_inj hkey hkey').mp (hproperty.symm.trans hproperty')

/-- A language whose key ends like a key of another one, and the one reader of a
property. -/
theorem property_keys_apart_dotted :
    let property := "sonar.cs.opencover.it.reportsPaths"
    let bucket := BucketKey.coverage .opencover .integration
    (CoverageKeys.derive "cs.opencover.it" .unit).get .opencover
        ≠ (CoverageKeys.derive "cs" .integration).get .opencover
      ∧ LanguageTable.builtin.Reads "cs" bucket property
      ∧ ∀ language key, LanguageTable.builtin.Reads language key property →
        language = "cs" ∧ key = bucket := by
  intro property bucket
  obtain ⟨hcoverage, -, -, -, hreads⟩ := property_keys_apart
  have hread : LanguageTable.builtin.Reads "cs" bucket property :=
    .reports .opencover (LanguageTable.resolveKeys_of_contains (by decide) .integration)
  refine ⟨fun h => ?_, hread, fun language key h => hreads _ _ _ _ _ _ h hread⟩
  have hscope := ((hcoverage _ _ _ _ _ _).mp h).2.1
  cases hscope

end CoverageRegistry
