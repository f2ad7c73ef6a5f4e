import Mathlib
import CoverageRegistry.Proofs.Report.Outcome

/-!
# The views of a report set

A report set is a list of reports, which need not name every tool, nor each of them once or
in order: a set that is read from a text may be of any shape. It is looked at in several
ways, and three of them see every report. Only the paths of a tool are those of its first
report, so a report that is put in front of others hides what they hold of its tool
(`listed_cons`). Everything about the number of paths follows from this by induction.
-/

namespace CoverageRegistry

namespace CoverageReportSet

/-! ## The paths of a tool -/

/-- The paths of a tool in some reports: those of its first report. -/
def pathsIn (reports : List ToolReports) (tool : CoverageTool) : List Path :=
  ((reports.find? fun report => report.tool = tool).map ToolReports.paths).getD []

theorem pathsIn_cons (first : ToolReports) (rest : List ToolReports) (tool : CoverageTool) :
    pathsIn (first :: rest) tool
      = if first.tool = tool then first.paths else pathsIn rest tool := by
  by_cases h : first.tool = tool <;> simp [pathsIn, h]

theorem pathsIn_of_notMem {reports : List ToolReports} {tool : CoverageTool}
    (h : tool ∉ reports.map ToolReports.tool) : pathsIn reports tool = [] := by
  have hnone : reports.find? (fun report => report.tool = tool) = none := by
    refine List.find?_eq_none.mpr fun report hreport => ?_
    intro htool
    exact h (List.mem_map.mpr ⟨report, hreport, of_decide_eq_true htool⟩)
  rw [pathsIn, hnone]
  rfl

/-- How many paths some reports hold, counted tool by tool. -/
def listed (reports : List ToolReports) : Nat :=
  (CoverageTool.all.map fun tool => (pathsIn reports tool).length).sum

/-- A report in front of others brings its own paths and hides theirs of its tool. -/
theorem listed_cons (first : ToolReports) (rest : List ToolReports) :
    listed (first :: rest) + (pathsIn rest first.tool).length
      = first.paths.length + listed rest := by
  simp only [listed, CoverageTool.all, pathsIn_cons, List.map_cons, List.map_nil,
    List.sum_cons, List.sum_nil]
  cases first.tool <;> simp <;> omega

theorem listed_le (reports : List ToolReports) :
    listed reports ≤ (reports.flatMap ToolReports.paths).length := by
  induction reports with
  | nil => exact Nat.le_refl 0
  | cons first rest ih =>
    have hcons := listed_cons first rest
    rw [List.flatMap_cons, List.length_append]
    omega

/-- Where no tool comes twice, nothing is hidden. -/
theorem listed_eq {reports : List ToolReports} (h : (reports.map ToolReports.tool).Nodup) :
    listed reports = (reports.flatMap ToolReports.paths).length := by
  induction reports with
  | nil => rfl
  | cons first rest ih =>
    obtain ⟨hnew, hrest⟩ := List.nodup_cons.mp h
    have hcons := listed_cons first rest
    rw [pathsIn_of_notMem hnew, List.length_nil, Nat.add_zero, ih hrest] at hcons
    rw [hcons, List.flatMap_cons, List.length_append]

/-! ## The other views -/

variable {set : CoverageReportSet}

theorem isEmpty_iff : set.isEmpty = true ↔ ∀ report ∈ set.reports, report.paths = [] := by
  simp [isEmpty]

theorem totalPaths_eq_zero_iff :
    set.totalPaths = 0 ↔ ∀ report ∈ set.reports, report.paths = [] := by
  rw [totalPaths, List.length_eq_zero_iff, List.flatMap_eq_nil_iff]

theorem toolsWithReports_eq_nil_iff :
    set.toolsWithReports = [] ↔ ∀ report ∈ set.reports, report.paths = [] := by
  simp [toolsWithReports]

theorem mem_toolsWithReports {tool : CoverageTool} :
    tool ∈ set.toolsWithReports
      ↔ ∃ report ∈ set.reports, report.paths ≠ [] ∧ report.tool = tool := by
  simp [toolsWithReports, and_assoc]

/-- What is listed for a tool stands in a report of it. -/
theorem exists_report_of_paths_ne_nil {tool : CoverageTool} (h : set.paths tool ≠ []) :
    ∃ report ∈ set.reports, report.tool = tool ∧ set.paths tool = report.paths := by
  unfold paths at h ⊢
  cases hfind : set.reports.find? fun report => report.tool = tool with
  | none => simp [hfind] at h
  | some report =>
    have htool : report.tool = tool := by simpa using List.find?_some hfind
    exact ⟨report, List.mem_of_find?_eq_some hfind, htool, rfl⟩

/-- Where no tool comes twice, the paths of a tool are those of its report. -/
theorem paths_of_mem (h : (set.reports.map ToolReports.tool).Nodup) {report : ToolReports}
    (hreport : report ∈ set.reports) : set.paths report.tool = report.paths := by
  unfold paths
  cases hfind : set.reports.find? fun other => other.tool = report.tool with
  | none => simpa using List.find?_eq_none.mp hfind report hreport
  | some other =>
    have htool : other.tool = report.tool := by simpa using List.find?_some hfind
    have hother : other = report :=
      List.inj_on_of_nodup_map h (List.mem_of_find?_eq_some hfind) hreport htool
    rw [hother]
    rfl

/-- A tool is among those with reports when it has paths, where no tool comes twice. -/
theorem mem_toolsWithReports_iff (h : (set.reports.map ToolReports.tool).Nodup)
    (tool : CoverageTool) : tool ∈ set.toolsWithReports ↔ set.paths tool ≠ [] := by
  rw [mem_toolsWithReports]
  constructor
  · rintro ⟨report, hreport, hpaths, rfl⟩
    rwa [paths_of_mem h hreport]
  · intro hpaths
    obtain ⟨report, hreport, htool, heq⟩ := exists_report_of_paths_ne_nil hpaths
    exact ⟨report, hreport, heq ▸ hpaths, htool⟩

/-- A set that a reader builds has one report for each tool. -/
theorem tools_reportSet (c : Collector) (now : Timestamp) (language : String)
    (scope : TestScope) :
    (c.reportSet now language scope).reports.map ToolReports.tool = CoverageTool.all := by
  rw [Collector.reportSet_eq, List.map_map]
  exact List.map_id _

/-- **The views of a report set agree.** Whatever the reports of a set, it is empty exactly
when its total is zero, and that is so exactly when no tool has reports; and its tools
together list at most the total. Where no tool comes twice they list all of it, and a tool
is among those with reports exactly when it lists something. So it is for every set that a
reader builds. -/
theorem views_agree (set : CoverageReportSet) :
    let ofTools := (CoverageTool.all.map fun tool => (set.paths tool).length).sum
    let agree := ofTools = set.totalPaths
      ∧ ∀ tool, tool ∈ set.toolsWithReports ↔ set.paths tool ≠ []
    (set.isEmpty = true ↔ set.totalPaths = 0)
      ∧ (set.totalPaths = 0 ↔ set.toolsWithReports = [])
      ∧ ofTools ≤ set.totalPaths
      ∧ ((set.reports.map ToolReports.tool).Nodup → agree)
      ∧ ∀ (c : Collector) (reader : Aggregator) (now : Timestamp) (language : String)
          (scope : TestScope),
        (c.buildReportSet reader.table reader.policy now language scope).result = .ok set →
          (set.reports.map ToolReports.tool).Nodup ∧ agree := by
  intro ofTools agree
  have hagree : (set.reports.map ToolReports.tool).Nodup → agree := fun h =>
    ⟨listed_eq h, mem_toolsWithReports_iff h⟩
  refine ⟨?_, ?_, listed_le set.reports, hagree, ?_⟩
  · rw [isEmpty_iff, totalPaths_eq_zero_iff]
  · rw [totalPaths_eq_zero_iff, toolsWithReports_eq_nil_iff]
  · intro c reader now language scope hset
    obtain ⟨-, rfl⟩ := Collector.eq_reportSet_of_result hset
    have hnodup : ((c.reportSet now language scope).reports.map ToolReports.tool).Nodup := by
      rw [tools_reportSet]
      decide
    exact ⟨hnodup, hagree hnodup⟩

/-- A set that lacks two tools and has the others out of order lists all it holds; one whose
first report of a tool is empty hides what the second one holds; and a set that was built
from a collector. -/
theorem views_agree_out_of_order :
    let swapped : CoverageReportSet :=
      ⟨"cs", .unit, [⟨.dotcover, "d", [.ofText "/a", .ofText "/b"]⟩, ⟨.ncover3, "n", []⟩], ⟨0, 0⟩⟩
    let repeated : CoverageReportSet :=
      ⟨"cs", .unit, [⟨.opencover, "o", []⟩, ⟨.dotcover, "d", [.ofText "/a"]⟩,
        ⟨.opencover, "o", [.ofText "/b"]⟩], ⟨0, 0⟩⟩
    let ofTools := fun set : CoverageReportSet =>
      (CoverageTool.all.map fun tool => (set.paths tool).length).sum
    let c := (Collector.fresh none).after
      [.contribute (.paths .ncover3 (some .unit) [.ofText "/a", .ofText "/a/."])]
    ((swapped.reports.map ToolReports.tool).Nodup
        ∧ ofTools swapped = swapped.totalPaths ∧ .ncover3 ∉ swapped.toolsWithReports)
      ∧ (ofTools repeated = 1 ∧ repeated.totalPaths = 2
        ∧ .opencover ∈ repeated.toolsWithReports ∧ repeated.paths .opencover = [])
      ∧ ∃ set, (c.buildReportSet .builtin .strict ⟨0, 0⟩ "cs" .unit).result = .ok set
        ∧ ofTools set = set.totalPaths ∧ .ncover3 ∈ set.toolsWithReports := by
  intro swapped repeated ofTools c
  obtain ⟨-, -, -, hswapped, -⟩ := views_agree swapped
  have hnodup : (swapped.reports.map ToolReports.tool).Nodup := by decide
  obtain ⟨htotal, htools⟩ := hswapped hnodup
  have hset : (c.buildReportSet .builtin .strict ⟨0, 0⟩ "cs" .unit).result
      = .ok (c.reportSet ⟨0, 0⟩ "cs" .unit) := by decide +kernel
  obtain ⟨-, -, -, -, hbuilt⟩ := views_agree (c.reportSet ⟨0, 0⟩ "cs" .unit)
  obtain ⟨-, hall, hlisted⟩ := hbuilt c ⟨.builtin, .strict⟩ ⟨0, 0⟩ "cs" .unit hset
  refine ⟨⟨hnodup, htotal, fun hmem => (htools .ncover3).mp hmem rfl⟩,
    ⟨by decide, by decide, by decide, by decide⟩, _, hset, hall, (hlisted .ncover3).mpr ?_⟩
  decide +kernel

end CoverageReportSet

end CoverageRegistry
