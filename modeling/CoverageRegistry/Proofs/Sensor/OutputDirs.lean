import CoverageRegistry.Proofs.Path.List
import CoverageRegistry.Proofs.Path.Noise
import CoverageRegistry.Proofs.Sensor.Rejection

/-!
# The output directories of the analyzer

An entry of the property that lists the projects is continued by the name of the output
directory before it is normalized. It comes to the same to normalize the entry first and
to go down into the directory afterwards (`normalize_below`): the stack machine puts the
name on whatever stack the entry leaves, and it has nothing to put it on exactly where
the entry has no normal form. So `protobufReportPaths_eq` describes what is found by the
normal forms of the entries alone.
-/

namespace CoverageRegistry

open StackMachine

/-! ## Entries of a property -/

/-- An entry as a property lists it: not empty, and without blanks at its ends. -/
structure IsEntry (raw : String) : Prop where
  ne_empty : raw ≠ ""
  trimList_eq : Text.trimList raw.toList = raw.toList

theorem IsEntry.trimStart_eq {raw : String} (h : IsEntry raw) :
    Text.trimStart raw.toList = raw.toList := by
  rw [← h.trimList_eq, Text.trimStart_trimList]

/-- A name that can stand at the end of an entry: it ends without a blank. -/
structure IsLastName (name : String) : Prop extends IsWrittenName name where
  trimEnd_eq : Text.trimEnd name.toList = name.toList

theorem isEntry_of_mem_list {settings : Settings} {property raw : String}
    (h : raw ∈ settings.list property) : IsEntry raw := by
  rw [Settings.list] at h
  cases hvalue : settings.get? property with
  | none => simp [hvalue] at h
  | some value =>
    rw [hvalue] at h
    have hitem : PathList.IsItem raw := PathList.isItem_of_mem_entries h
    exact ⟨hitem.ne_empty, hitem.trimList_eq⟩

/-! ## Going down from an entry -/

/-- The same error, of the entry that goes on below by a name. -/
def InvalidPath.below (name : String) (error : InvalidPath) : InvalidPath :=
  ⟨error.raw ++ "/" ++ name,
    match error.cause with
    | .escapesRoot text => .escapesRoot (text ++ "/" ++ name)
    | cause => cause⟩

@[simp] theorem InvalidPath.kind_below (name : String) (error : InvalidPath) :
    (error.below name).cause.kind = error.cause.kind := by
  obtain ⟨raw, cause⟩ := error
  cases cause <;> rfl

namespace StackMachine

/-- A name at the end is put on the stack that is left. -/
theorem run_concat_name {name : Segment} (h : Path.IsName name) (segments : List Segment) :
    run (segments ++ [name]) = (run segments).map (· ++ [name]) := by
  have hput : ∀ stack, step stack name = some (stack ++ [name]) :=
    fun stack => if_neg h.ne_parent
  rw [run, run, List.foldlM_append]
  cases segments.foldlM step [] with
  | none => rfl
  | some stack =>
    show [name].foldlM step stack = some (stack ++ [name])
    rw [List.foldlM_cons, hput]
    rfl

theorem opensAtRoot_append {text : String} (h : text ≠ "") (rest : String) :
    OpensAtRoot (text ++ rest) ↔ OpensAtRoot text := by
  rw [OpensAtRoot, OpensAtRoot, String.toList_append, List.head?_append]
  cases hchars : text.toList with
  | nil => exact absurd (String.toList_inj.mp hchars) h
  | cons c cs => rfl

theorem input_below {text name : String} (htext : text ≠ "") (hname : IsWrittenName name)
    (base : Path) :
    input (text ++ "/" ++ name) base = input text base ++ [Utf8.encode name.toList] := by
  have hroot := (opensAtRoot_append htext ("/" ++ name))
  rw [← String.append_assoc] at hroot
  have hchars : (text ++ "/" ++ name).toList = text.toList ++ '/' :: name.toList := by simp
  have hloud : Path.loud [Utf8.encode name.toList] = [Utf8.encode name.toList] :=
    Path.loud_of_names (by simpa using hname.isName)
  rw [input_eq, input_eq, hchars, segmentsOf_append_slash, segmentsOf_of_notMem hname.no_slash,
    ← List.append_assoc, Path.loud_append, hloud]
  simp only [lead, hroot]

end StackMachine

theorem entryText_below {raw name : String} (hraw : IsEntry raw) (hname : IsLastName name) :
    entryText (raw ++ "/" ++ name) = entryText raw ++ "/" ++ name := by
  rw [← String.toList_inj, toList_entryText_slash, hraw.trimStart_eq, hname.trimEnd_eq,
    Text.map_slashed_of_notMem hname.no_backslash, String.toList_append, String.toList_append,
    toList_entryText, hraw.trimList_eq]
  simp

/-- **Going down before or after**: an entry with a name below it has the normal form of
the entry, continued by the name, or the error of the entry. -/
theorem normalize_below {raw name : String} (hraw : IsEntry raw) (hname : IsLastName name)
    (base : Path) :
    normalize (raw ++ "/" ++ name) base =
      match normalize raw base with
      | .ok path => .ok (path.join (.ofText name))
      | .error error => .error (error.below name) := by
  have hne : entryText raw ≠ "" := by
    rw [Ne, ← String.toList_inj, toList_entryText, hraw.trimList_eq]
    intro h
    exact hraw.ne_empty (String.toList_inj.mp (List.map_eq_nil_iff.mp h))
  rw [normalize_eq_run, normalize_eq_run, entryText_below hraw hname]
  generalize entryText raw = text at hne
  have hroot : OpensAtRoot (text ++ "/" ++ name) ↔ OpensAtRoot text := by
    rw [String.append_assoc]
    exact opensAtRoot_append hne ("/" ++ name)
  have hlong : text ++ "/" ++ name ≠ "" := by
    simp [hne]
  rw [if_neg hne, if_neg hlong]
  simp only [hroot]
  by_cases hrelative : ¬ OpensAtRoot text ∧ base.isAbsolute = false
  · rw [if_pos hrelative, if_pos hrelative]
    rfl
  · rw [if_neg hrelative, if_neg hrelative, input_below hne hname.toIsWrittenName,
      run_concat_name hname.isName]
    cases hrun : run (input text base) with
    | none => rfl
    | some stack =>
      have hnames := isName_foldlM_step (by simp) (fun _ => isLoud_of_mem_input) hrun
      exact congrArg Except.ok (Path.join_ofSegments hnames hname.isName).symm

theorem resolve_below {raw name : String} (hraw : IsEntry raw) (hname : IsLastName name)
    (base : Path) :
    resolve (raw ++ "/" ++ name) base = (resolve raw base).map (·.join (.ofText name)) := by
  rw [resolve, resolve, normalize_below hraw hname]
  cases normalize raw base with
  | ok path => rfl
  | error error => exact congrArg Except.error (error.kind_below name)

/-! ## The output directory of a language -/

/-- Letters and digits are neither blanks nor separators. -/
theorem not_blank_of_isLower_or_isDigit {c : Char} (h : (c.isLower || c.isDigit) = true) :
    Text.isBlank c = false ∧ c ≠ '/' ∧ c ≠ '\\' := by
  have hrange : 97 ≤ c.toNat ∧ c.toNat ≤ 122 ∨ 48 ≤ c.toNat ∧ c.toNat ≤ 57 := by
    simpa [Char.isLower, Char.isDigit, UInt32.le_iff_toNat_le, ← Char.toNat_val] using h
  have hapart : ∀ range ∈ Text.blankRanges, range.2 < 48 ∨ 122 < range.1 := by decide
  refine ⟨?_, ?_, ?_⟩
  · rw [Text.isBlank, List.any_eq_false]
    intro range hmem
    have houtside := hapart range hmem
    simp only [Bool.and_eq_true, decide_eq_true_eq]
    omega
  · rintro rfl
    revert hrange
    decide
  · rintro rfl
    revert hrange
    decide

namespace LanguageInfo

variable {language : LanguageInfo} (h : isLanguageKey language.key = true)
include h

theorem not_blank_analyzerOutputDir {c : Char} (hc : c ∈ language.analyzerOutputDir.toList) :
    Text.isBlank c = false ∧ c ≠ '/' ∧ c ≠ '\\' := by
  have hstart : ∀ c ∈ "output-".toList, (c.isLower || c.isDigit) = true ∨ c = '-' := by simp
  rw [isLanguageKey, Bool.and_eq_true, List.all_eq_true] at h
  rw [analyzerOutputDir, String.toList_append] at hc
  rcases List.mem_append.mp hc with hc | hc
  · rcases hstart c hc with hletter | rfl
    · exact not_blank_of_isLower_or_isDigit hletter
    · decide
  · exact not_blank_of_isLower_or_isDigit (h.2 c hc)

/-- The output directory is a name by itself, however the projects are listed. -/
theorem isLastName_analyzerOutputDir : IsLastName language.analyzerOutputDir := by
  have hdiffers : ∀ other : String, other.toList.head? ≠ some 'o' →
      language.analyzerOutputDir ≠ other := by
    rintro other hother rfl
    refine hother ?_
    rw [analyzerOutputDir, String.toList_append]
    rfl
  refine ⟨⟨hdiffers "" (by decide), ?_, ?_, hdiffers "." (by decide),
    hdiffers ".." (by decide)⟩, ?_⟩
  · intro hc
    exact (not_blank_analyzerOutputDir h hc).2.1 rfl
  · intro hc
    exact (not_blank_analyzerOutputDir h hc).2.2 rfl
  · exact Text.trimEnd_of_not_blank fun _ hc => (not_blank_analyzerOutputDir h hc).1

end LanguageInfo

namespace AnalyzerConfiguration

variable {configuration : AnalyzerConfiguration} {raw : String}

/-- The output directory of an entry is the normal form of the entry, continued. -/
theorem outputDir_eq (hkey : isLanguageKey configuration.language.key = true)
    (hraw : raw ∈ configuration.settings.list configuration.language.projectOutPathsKey) :
    configuration.outputDir raw =
      match normalize raw configuration.baseDir with
      | .ok path => .ok (path.join (.ofText configuration.language.analyzerOutputDir))
      | .error error => .error (error.below configuration.language.analyzerOutputDir) := by
  rw [outputDir, normalize_below (isEntry_of_mem_list hraw)
    (LanguageInfo.isLastName_analyzerOutputDir hkey)]

/-- **The output directories are those below the normal forms of the entries.** Let the
language have a key that a table accepts. For every entry of the property, going down
into the output directory before the entry is normalized or afterwards gives the same
path or the same kind of error. So what is found is, in order and with repetitions, the
directory below the normal form of each entry that has one, wherever it exists; and the
entries without a normal form, no others, are reported as rejected. -/
theorem protobufReportPaths_eq (configuration : AnalyzerConfiguration)
    (hkey : isLanguageKey configuration.language.key = true) (isDirectory : Path → Bool) :
    let property := configuration.language.projectOutPathsKey
    let raws := configuration.settings.list property
    let base := configuration.baseDir
    let name := configuration.language.analyzerOutputDir
    (∀ raw ∈ raws, resolve (raw ++ "/" ++ name) base
        = (resolve raw base).map (·.join (.ofText name)))
      ∧ configuration.protobufReportPaths isDirectory
        = (raws.filterMap fun raw =>
            match normalize raw base with
            | .ok path =>
              let dir := path.join (.ofText name)
              if isDirectory dir then some dir else none
            | .error _ => none)
      ∧ rejections (configuration.protobufEvents isDirectory)
        = raws.filterMap fun raw =>
            match normalize raw base with
            | .ok _ => none
            | .error error => some (.pathRejected property (error.below name).message) := by
  intro property raws base name
  refine ⟨?_, ?_, ?_⟩
  · intro raw hraw
    exact resolve_below (isEntry_of_mem_list hraw)
      (LanguageInfo.isLastName_analyzerOutputDir hkey) base
  · rw [protobufReportPaths, candidates, List.filter_filterMap]
    refine List.filterMap_congr fun raw hraw => ?_
    rw [outputDir_eq hkey hraw]
    cases normalize raw configuration.baseDir with
    | error error => rfl
    | ok path => rfl
  · -- the events depend on no more of a module than its settings and its base directory
    have hreported := rejections_protobufEvents configuration.language
      ⟨"", configuration.baseDir, configuration.settings, []⟩ isDirectory
    refine hreported.trans ?_
    rw [rejectionEvents, Module.invalidEntries, List.map_filterMap]
    refine List.filterMap_congr fun raw hraw => ?_
    rw [invalid?, normalize_below (isEntry_of_mem_list hraw)
      (LanguageInfo.isLastName_analyzerOutputDir hkey)]
    cases normalize raw configuration.baseDir with
    | error error => rfl
    | ok path => rfl

/-- The root, an entry that takes itself back, one that reaches the root, one that leaves
it, and one with a separator at its end that comes twice. -/
theorem protobufReportPaths_eq_root :
    let settings : Settings :=
      .ofPairs [("sonar.cs.analyzer.projectOutPaths",
        "/, a/.. , ..\\b\\.., ../../.., out/, out/")]
    let configuration : AnalyzerConfiguration :=
      ⟨⟨"cs", "C#"⟩, settings, .ofText "/repo"⟩
    isLanguageKey "cs" = true
      ∧ configuration.protobufReportPaths (fun _ => true)
        = ["/output-cs", "/repo/output-cs", "/output-cs", "/repo/out/output-cs",
            "/repo/out/output-cs"].map .ofText
      ∧ (rejections (configuration.protobufEvents fun _ => true)).length = 1 := by
  intro settings configuration
  have hkey : isLanguageKey "cs" = true := by decide
  obtain ⟨-, hpaths, hreported⟩ := configuration.protobufReportPaths_eq hkey fun _ => true
  refine ⟨hkey, hpaths.trans ?_, (congrArg List.length hreported).trans ?_⟩
  · decide +kernel
  · decide +kernel

end AnalyzerConfiguration

end CoverageRegistry
