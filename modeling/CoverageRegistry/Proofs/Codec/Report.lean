import CoverageRegistry.Codec.Report
import CoverageRegistry.Proofs.Codec.Record
import CoverageRegistry.Proofs.Text.Utf8

/-!
# Reading report sets back

A path has a JSON form when its octets are UTF-8 (`Path.exists_toJson?_iff`), and a report
set has one when all its paths have (`CoverageReportSet.exists_toJson?_iff`,
`AnalyzerReportSet.exists_toJson?_iff`). What has a form is read back from it, each path
with the octets it had (`CoverageReportSet.reads`, `AnalyzerReportSet.reads`).
-/

namespace CoverageRegistry

open Codec

/-! ## Kinds and paths -/

theorem TestScope.reads (scope : TestScope) : Reads ofJson? scope.toJson scope := by
  have hinj : ∀ x ∈ all, ∀ y ∈ all, x.name = y.name → x = y := by decide
  exact Reads.choice hinj (by cases scope <;> decide)

theorem CoverageTool.reads (tool : CoverageTool) : Reads ofJson? tool.toJson tool := by
  have hinj : ∀ x ∈ all, ∀ y ∈ all, x.jsonName = y.jsonName → x = y := by decide
  exact Reads.choice hinj (by cases tool <;> decide)

namespace Path

/-- A path whose octets are UTF-8. -/
def IsUtf8 (path : Path) : Prop :=
  ∃ text, path = ofText text

theorem text?_eq_some_iff {path : Path} {text : String} :
    path.text? = some text ↔ path = ofText text := by
  rw [text?, Option.map_eq_some_iff]
  constructor
  · rintro ⟨cs, hcs, rfl⟩
    rw [ofText, String.toList_ofList, Utf8.encode_of_decode? hcs]
  · rintro rfl
    refine ⟨text.toList, ?_, String.ofList_toList⟩
    rw [ofText, Utf8.decode?, Utf8.decodeLossy_encode, if_pos rfl]

theorem isUtf8_iff {path : Path} : path.IsUtf8 ↔ path.text?.isSome = true := by
  simp only [Option.isSome_iff_exists, text?_eq_some_iff]
  rfl

instance (path : Path) : Decidable path.IsUtf8 :=
  decidable_of_iff' _ isUtf8_iff

theorem toJson?_eq_some_iff {path : Path} {value : Json} :
    path.toJson? = some value ↔ ∃ text, path = ofText text ∧ .string text = value := by
  simp only [toJson?, Option.map_eq_some_iff, text?_eq_some_iff]

theorem exists_toJson?_iff {path : Path} :
    (∃ value, path.toJson? = some value) ↔ path.IsUtf8 := by
  simp only [toJson?_eq_some_iff]
  constructor
  · rintro ⟨_, text, h, _⟩
    exact ⟨text, h⟩
  · rintro ⟨text, h⟩
    exact ⟨_, text, h, rfl⟩

theorem reads {path : Path} {value : Json} (h : path.toJson? = some value) :
    Reads ofJson? value path := by
  obtain ⟨text, rfl, rfl⟩ := toJson?_eq_some_iff.mp h
  intro sorted
  rw [ofJson?, Reads.string text sorted, Option.map_some]

theorem exists_listToJson?_iff {paths : List Path} :
    (∃ value, listToJson? paths = some value) ↔ ∀ path ∈ paths, path.IsUtf8 := by
  have hpaths : (∃ values, paths.mapM toJson? = some values) ↔ ∀ path ∈ paths, path.IsUtf8 := by
    simp only [exists_mapM_iff, exists_toJson?_iff]
  rw [← hpaths]
  simp only [listToJson?, Option.map_eq_some_iff]
  constructor
  · rintro ⟨_, values, hvalues, _⟩
    exact ⟨values, hvalues⟩
  · rintro ⟨values, hvalues⟩
    exact ⟨_, values, hvalues, rfl⟩

theorem reads_list {paths : List Path} {value : Json} (h : listToJson? paths = some value) :
    Reads (list? ofJson?) value paths := by
  obtain ⟨values, hvalues, rfl⟩ := Option.map_eq_some_iff.mp h
  exact Reads.list ((mapM_eq_some_iff.mp hvalues).flip.imp fun _ _ => reads)

end Path

/-! ## Coverage -/

namespace ToolReports

variable {reports : ToolReports} {value : Json}

/-- The members of the form of a tool's reports, given the form of their paths. -/
theorem toJson?_eq_some_iff :
    reports.toJson? = some value ↔ ∃ paths, Path.listToJson? reports.paths = some paths
      ∧ .object [("tool", reports.tool.toJson), ("property_key", .string reports.propertyKey),
        ("paths", paths)] = value := by
  simp [toJson?, Option.bind_eq_some_iff]

theorem exists_toJson?_iff :
    (∃ value, reports.toJson? = some value) ↔ ∀ path ∈ reports.paths, path.IsUtf8 := by
  simp only [toJson?_eq_some_iff, ← Path.exists_listToJson?_iff]
  rw [exists_comm]
  simp

theorem reads (h : reports.toJson? = some value) : Reads ofJson? value reports := by
  obtain ⟨paths, hpaths, rfl⟩ := toJson?_eq_some_iff.mp h
  refine Reads.record rfl (by simp) fun sorted => ?_
  have htool := (CoverageTool.reads reports.tool).required sorted
  have hkey := (Reads.string reports.propertyKey).required sorted
  have hpaths := (Path.reads_list hpaths).required sorted
  simp only [List.map_cons, List.map_nil, bind, Option.bind_some, htool, hkey, hpaths, pure]

end ToolReports

/-- A timestamp whose text is read back is read back from its form. -/
theorem Timestamp.reads {t : Timestamp} (h : parse? t.render = some t) :
    Reads ofJson? t.toJson t := by
  intro sorted
  rw [ofJson?, toJson, Reads.string t.render sorted, Option.bind_some, h]

namespace CoverageReportSet

variable {set : CoverageReportSet} {value : Json}

/-- The paths of all tools. -/
def allPaths (set : CoverageReportSet) : List Path :=
  set.reports.flatMap ToolReports.paths

theorem toJson?_eq_some_iff :
    set.toJson? = some value ↔ ∃ reports, set.reports.mapM ToolReports.toJson? = some reports
      ∧ .object [("language", .string set.language), ("scope", set.scope.toJson),
        ("reports", .array reports), ("generated_at", set.generatedAt.toJson)] = value := by
  simp [toJson?, Option.bind_eq_some_iff]

theorem exists_toJson?_iff :
    (∃ value, set.toJson? = some value) ↔ ∀ path ∈ set.allPaths, path.IsUtf8 := by
  have hreports : (∃ reports, set.reports.mapM ToolReports.toJson? = some reports)
      ↔ ∀ path ∈ set.allPaths, path.IsUtf8 := by
    simp only [exists_mapM_iff, ToolReports.exists_toJson?_iff, allPaths,
      List.forall_mem_flatMap]
  simp only [toJson?_eq_some_iff, ← hreports]
  rw [exists_comm]
  simp

theorem reads (htime : Timestamp.parse? set.generatedAt.render = some set.generatedAt)
    (h : set.toJson? = some value) : Reads ofJson? value set := by
  obtain ⟨reports, hreports, rfl⟩ := toJson?_eq_some_iff.mp h
  refine Reads.record rfl (by simp) fun sorted => ?_
  have hlanguage := (Reads.string set.language).required sorted
  have hscope := (TestScope.reads set.scope).required sorted
  have hlist : Reads (list? ToolReports.ofJson?) (.array reports) set.reports :=
    Reads.list ((mapM_eq_some_iff.mp hreports).flip.imp fun _ _ => ToolReports.reads)
  have htime := (Timestamp.reads htime).required sorted
  simp only [List.map_cons, List.map_nil, bind, Option.bind_some, hlanguage, hscope,
    hlist.required sorted, htime, pure]

end CoverageReportSet

/-! ## Analyzer outputs -/

namespace RoslynReport

variable {report : RoslynReport} {value : Json}

theorem toJson?_eq_some_iff :
    report.toJson? = some value ↔ ∃ path, report.path.toJson? = some path
      ∧ .object [("module", .string report.module), ("path", path)] = value := by
  simp [toJson?, Option.bind_eq_some_iff]

theorem exists_toJson?_iff :
    (∃ value, report.toJson? = some value) ↔ report.path.IsUtf8 := by
  simp only [toJson?_eq_some_iff, ← Path.exists_toJson?_iff]
  rw [exists_comm]
  simp

theorem reads (h : report.toJson? = some value) : Reads ofJson? value report := by
  obtain ⟨path, hpath, rfl⟩ := toJson?_eq_some_iff.mp h
  refine Reads.record rfl (by simp) fun sorted => ?_
  have hmodule := (Reads.string report.module).required sorted
  have hpath := (Path.reads hpath).required sorted
  simp only [List.map_cons, List.map_nil, bind, Option.bind_some, hmodule, hpath, pure]

end RoslynReport

namespace AnalyzerReportSet

variable {set : AnalyzerReportSet} {value : Json}

/-- The directories and the paths of the reports. -/
def allPaths (set : AnalyzerReportSet) : List Path :=
  set.protobufDirs ++ set.roslynReports.map RoslynReport.path

theorem toJson?_eq_some_iff :
    set.toJson? = some value ↔ ∃ dirs reports, Path.listToJson? set.protobufDirs = some dirs
      ∧ set.roslynReports.mapM RoslynReport.toJson? = some reports
      ∧ .object [("protobuf_dirs", dirs), ("roslyn_reports", .array reports)] = value := by
  simp [toJson?, Option.bind_eq_some_iff]

theorem exists_toJson?_iff :
    (∃ value, set.toJson? = some value) ↔ ∀ path ∈ set.allPaths, path.IsUtf8 := by
  have hreports : (∃ reports, set.roslynReports.mapM RoslynReport.toJson? = some reports)
      ↔ ∀ report ∈ set.roslynReports, report.path.IsUtf8 := by
    simp only [exists_mapM_iff, RoslynReport.exists_toJson?_iff]
  rw [allPaths, List.forall_mem_append, List.forall_mem_map, ← Path.exists_listToJson?_iff,
    ← hreports]
  simp only [toJson?_eq_some_iff]
  constructor
  · rintro ⟨_, dirs, reports, hdirs, hreports, _⟩
    exact ⟨⟨dirs, hdirs⟩, reports, hreports⟩
  · rintro ⟨⟨dirs, hdirs⟩, reports, hreports⟩
    exact ⟨_, dirs, reports, hdirs, hreports, rfl⟩

theorem reads (h : set.toJson? = some value) : Reads ofJson? value set := by
  obtain ⟨dirs, reports, hdirs, hreports, rfl⟩ := toJson?_eq_some_iff.mp h
  refine Reads.record rfl (by simp) fun sorted => ?_
  have hdirs := (Path.reads_list hdirs).required sorted
  have hlist : Reads (list? RoslynReport.ofJson?) (.array reports) set.roslynReports :=
    Reads.list ((mapM_eq_some_iff.mp hreports).flip.imp fun _ _ => RoslynReport.reads)
  simp only [List.map_cons, List.map_nil, bind, Option.bind_some, hdirs,
    hlist.required sorted, pure]

end AnalyzerReportSet

end CoverageRegistry
