import CoverageRegistry.Codec.Run
import CoverageRegistry.Proofs.Codec.Report

/-!
# Reading run reports back

A run report has a JSON form when all its paths are UTF-8 (`RunReport.exists_toJson?_iff`),
and what has one is read back from it (`RunReport.reads`). The record of a sensor is read
in two parts: its own fields, and what is left of its members, which are those of its
status whatever the status is (`SensorReport.filter_members`).
-/

namespace CoverageRegistry

open Codec

namespace SensorOutcome

/-- The counts are machine words. -/
structure HasWords (outcome : SensorOutcome) : Prop where
  contributed : outcome.contributed < UInt64.size
  rejected : outcome.rejected < UInt64.size

theorem reads {outcome : SensorOutcome} (h : outcome.HasWords) :
    Reads ofJson? outcome.toJson outcome := by
  refine Reads.record rfl (by simp) fun sorted => ?_
  have hcontributed := (Reads.word h.contributed).required sorted
  have hrejected := (Reads.word h.rejected).required sorted
  simp only [List.map_cons, List.map_nil, bind, Option.bind_some, hcontributed, hrejected, pure]

end SensorOutcome

namespace SensorStatus

/-- The members of a status are texts, which fit anywhere. -/
theorem fits_of_mem_members {status : SensorStatus} (room : Nat) :
    ∀ member ∈ status.members, member.2.fits room = true := by
  cases status <;> simp [members, Json.fits]

/-- A status is read from its members, in whatever order they were held back. -/
theorem ofHeld?_of_perm {status : SensorStatus} {held : List (String × Json)}
    (h : held.Perm status.members) : ofHeld? held = some status := by
  have hnodup : (held.map Prod.fst).Nodup := by
    rw [(h.map Prod.fst).nodup_iff]
    cases status <;> simp [members]
  cases status with
  | finished | skipped =>
    have hstatus := single?_of_mem hnodup (h.mem_iff.mpr List.mem_cons_self)
    rw [ofHeld?, hstatus]
    rfl
  | failed error =>
    have hstatus := single?_of_mem hnodup (h.mem_iff.mpr List.mem_cons_self)
    have herror := single?_of_mem hnodup
      (h.mem_iff.mpr (List.mem_cons_of_mem _ List.mem_cons_self))
    have htag : required heldTag? (some (.string Tag.failed.name)) = some .failed := by rfl
    simp only [ofHeld?, hstatus, htag, ofTag?, herror, bind, Option.bind_some]
    rfl

end SensorStatus

namespace SensorReport

/-- The counts and the time are machine words. -/
structure HasWords (report : SensorReport) : Prop where
  outcome : report.outcome.HasWords
  millis : report.millis < UInt64.size

/-- The members of the record of a sensor. -/
def members (report : SensorReport) : List (String × Json) :=
  [("sensor", .string report.sensor), ("module", .string report.module)] ++
    report.status.members ++
    [("outcome", report.outcome.toJson), ("duration_ms", .nat report.millis)]

theorem toJson_eq (report : SensorReport) : report.toJson = .object report.members := rfl

/-- The members that are not those of the status. -/
def ownMembers (report : SensorReport) : List (String × Json) :=
  [("sensor", .string report.sensor), ("module", .string report.module),
    ("outcome", report.outcome.toJson), ("duration_ms", .nat report.millis)]

theorem ownMembers_subset (report : SensorReport) : report.ownMembers ⊆ report.members := by
  intro member hmember
  simp only [ownMembers, List.mem_cons, List.not_mem_nil, or_false] at hmember
  simp only [members, List.mem_append, List.mem_cons, List.not_mem_nil, or_false]
  tauto

theorem nodup_members (report : SensorReport) : (report.members.map Prod.fst).Nodup := by
  rcases report with ⟨_, _, status, _, _⟩
  cases status <;> simp [members, SensorStatus.members]

/-- The members that are not a record's own are those of its status. -/
theorem filter_members (sorted : Bool) (report : SensorReport) :
    (Json.arrangeMembers sorted report.members).filter (fun member =>
      !ownFields.contains member.1) = report.status.members := by
  rcases report with ⟨_, _, status, _, _⟩
  cases status <;> simp [members, SensorStatus.members, Json.arrangeMembers, ownFields]

theorem reads {report : SensorReport} (h : report.HasWords) (depth : Nat) :
    Reads (ofJsonBelow? depth) report.toJson report := by
  intro sorted
  obtain ⟨members', hobject, hperm⟩ := Json.exists_arrange_object sorted report.nodup_members
  have hheld := hperm.filter fun member => !ownFields.contains member.1
  rw [filter_members] at hheld
  have hfits : (members'.filter fun member => !ownFields.contains member.1).all
      (fun member => member.2.fits (nestingRoom - depth)) = true :=
    List.all_eq_true.mpr fun member hmember =>
      SensorStatus.fits_of_mem_members _ member (hheld.mem_iff.mp hmember)
  have hown : ownFields = report.ownMembers.map Prod.fst := rfl
  have hrecord := record?_of_perm hown report.ownMembers_subset report.nodup_members hperm
  have hsensor := (Reads.string report.sensor).required sorted
  have hmodule := (Reads.string report.module).required sorted
  have houtcome := (SensorOutcome.reads h.outcome).required sorted
  have hmillis := (Reads.word h.millis).required sorted
  rw [toJson_eq, hobject, ofJsonBelow?]
  simp only [Json.members?, hfits, hrecord, bind, Option.bind_some, if_true]
  simp only [ownMembers, List.map_cons, List.map_nil, Option.bind_some, hsensor, hmodule,
    SensorStatus.ofHeld?_of_perm hheld, houtcome, hmillis, pure]

end SensorReport

namespace RunReport

variable {report : RunReport} {value : Json}

/-! ## Analyzer outputs by language -/

/-- An entry of a map of analyzer outputs as a member of an object. -/
def entryToJson? (entry : String × AnalyzerReportSet) : Option (String × Json) := do
  return (entry.1, ← entry.2.toJson?)

/-- A member of an object as an entry of a map of analyzer outputs. -/
def entryOfJson? (member : String × Json) : Option (String × AnalyzerReportSet) := do
  return (member.1, ← AnalyzerReportSet.ofJson? member.2)

theorem analyzerToJson?_eq (analyzer : TextMap AnalyzerReportSet) :
    analyzerToJson? analyzer = (analyzer.entries.mapM entryToJson?).map .object := rfl

theorem analyzerOfJson?_object (members : List (String × Json)) :
    analyzerOfJson? (.object members) = (members.mapM entryOfJson?).map .ofList := by
  show (members.mapM entryOfJson?).bind (fun entries => some (TextMap.ofList entries)) = _
  rw [Option.map_eq_bind]
  rfl

theorem entryToJson?_eq_some_iff {entry : String × AnalyzerReportSet}
    {member : String × Json} :
    entryToJson? entry = some member ↔ entry.1 = member.1 ∧ entry.2.toJson? = some member.2 := by
  rcases member with ⟨name, value⟩
  simp [entryToJson?, Option.bind_eq_some_iff, and_comm]

theorem exists_entryToJson?_iff {entry : String × AnalyzerReportSet} :
    (∃ member, entryToJson? entry = some member) ↔ ∀ path ∈ entry.2.allPaths, path.IsUtf8 := by
  rw [← AnalyzerReportSet.exists_toJson?_iff]
  constructor
  · rintro ⟨member, hmember⟩
    exact ⟨member.2, (entryToJson?_eq_some_iff.mp hmember).2⟩
  · rintro ⟨value, hvalue⟩
    exact ⟨(entry.1, value), entryToJson?_eq_some_iff.mpr ⟨rfl, hvalue⟩⟩

theorem exists_analyzerToJson?_iff {analyzer : TextMap AnalyzerReportSet} :
    (∃ value, analyzerToJson? analyzer = some value)
      ↔ ∀ set ∈ analyzer.values, ∀ path ∈ set.allPaths, path.IsUtf8 := by
  have hentries : (∃ members, analyzer.entries.mapM entryToJson? = some members)
      ↔ ∀ set ∈ analyzer.values, ∀ path ∈ set.allPaths, path.IsUtf8 := by
    rw [TextMap.values, List.forall_mem_map]
    simp only [exists_mapM_iff, exists_entryToJson?_iff]
  simp only [analyzerToJson?_eq, Option.map_eq_some_iff, ← hentries]
  rw [exists_comm]
  simp

theorem map_fst_of_mapM {entries : List (String × AnalyzerReportSet)}
    {members : List (String × Json)} (h : entries.mapM entryToJson? = some members) :
    members.map Prod.fst = entries.map Prod.fst := by
  have hnames : List.Forall₂ (fun entry member => entry = member) (entries.map Prod.fst)
      (members.map Prod.fst) := by
    rw [List.forall₂_map_left_iff, List.forall₂_map_right_iff]
    exact (mapM_eq_some_iff.mp h).imp fun _ _ hentry => (entryToJson?_eq_some_iff.mp hentry).1
  exact (List.forall₂_eq_eq_eq ▸ hnames).symm

/-- A map of analyzer outputs is filled with the entries that its members give. -/
theorem reads_analyzer {analyzer : TextMap AnalyzerReportSet}
    (h : analyzerToJson? analyzer = some value) : Reads analyzerOfJson? value analyzer := by
  rw [analyzerToJson?_eq] at h
  obtain ⟨members, hmembers, rfl⟩ := Option.map_eq_some_iff.mp h
  have hnames : members.Pairwise fun a b => a.1 < b.1 := by
    have hkeys : (analyzer.entries.map Prod.fst).Pairwise (· < ·) :=
      List.pairwise_map.mpr analyzer.sorted
    rw [← map_fst_of_mapM hmembers] at hkeys
    exact List.pairwise_map.mp hkeys
  intro sorted
  have hentries : (Json.arrangeMembers sorted members).mapM entryOfJson?
      = some analyzer.entries := by
    rw [mapM_eq_some_iff, Json.arrangeMembers, List.forall₂_map_left_iff]
    refine (mapM_eq_some_iff.mp hmembers).flip.imp fun member entry hentry => ?_
    obtain ⟨hname, hset⟩ := entryToJson?_eq_some_iff.mp hentry
    simp [entryOfJson?, AnalyzerReportSet.reads hset sorted, ← hname]
  rw [Json.arrange_object_of_pairwise sorted hnames, analyzerOfJson?_object, hentries,
    Option.map_some, TextMap.ofList_entries]

/-! ## Run reports -/

/-- The paths of the report sets and of the analyzer outputs. -/
def allPaths (report : RunReport) : List Path :=
  report.coverage.flatMap CoverageReportSet.allPaths ++
    report.analyzer.values.flatMap AnalyzerReportSet.allPaths

theorem toJson?_eq_some_iff :
    report.toJson? = some value ↔ ∃ coverage analyzer,
      report.coverage.mapM CoverageReportSet.toJson? = some coverage
      ∧ analyzerToJson? report.analyzer = some analyzer
      ∧ .object [("run_id", .string report.runId), ("coverage", .array coverage),
        ("analyzer", analyzer), ("sensors", .array (report.sensors.map SensorReport.toJson))]
        = value := by
  simp [toJson?, Option.bind_eq_some_iff]

theorem exists_toJson?_iff :
    (∃ value, report.toJson? = some value) ↔ ∀ path ∈ report.allPaths, path.IsUtf8 := by
  have hcoverage : (∃ coverage, report.coverage.mapM CoverageReportSet.toJson? = some coverage)
      ↔ ∀ path ∈ report.coverage.flatMap CoverageReportSet.allPaths, path.IsUtf8 := by
    simp only [exists_mapM_iff, CoverageReportSet.exists_toJson?_iff, List.forall_mem_flatMap]
  rw [allPaths, List.forall_mem_append, ← hcoverage,
    List.forall_mem_flatMap, ← exists_analyzerToJson?_iff]
  simp only [toJson?_eq_some_iff]
  constructor
  · rintro ⟨_, coverage, analyzer, hcoverage, hanalyzer, _⟩
    exact ⟨⟨coverage, hcoverage⟩, analyzer, hanalyzer⟩
  · rintro ⟨⟨coverage, hcoverage⟩, analyzer, hanalyzer⟩
    exact ⟨_, coverage, analyzer, hcoverage, hanalyzer, rfl⟩

theorem reads (hwords : ∀ sensor ∈ report.sensors, sensor.HasWords)
    (htimes : ∀ set ∈ report.coverage,
      Timestamp.parse? set.generatedAt.render = some set.generatedAt)
    (h : report.toJson? = some value) : Reads ofJson? value report := by
  obtain ⟨coverage, analyzer, hcoverage, hanalyzer, rfl⟩ := toJson?_eq_some_iff.mp h
  refine Reads.record rfl (by simp) fun sorted => ?_
  have hrunId := (Reads.string report.runId).required sorted
  have hsets : Reads (list? CoverageReportSet.ofJson?) (.array coverage) report.coverage := by
    have hboth := (List.forall₂_and_left _ _).mpr ⟨htimes, mapM_eq_some_iff.mp hcoverage⟩
    exact Reads.list (hboth.flip.imp fun _ _ h => CoverageReportSet.reads h.1 h.2)
  have hanalyzer := (reads_analyzer hanalyzer).required sorted
  have hsensors : Reads (list? (SensorReport.ofJsonBelow? 2))
      (.array (report.sensors.map SensorReport.toJson)) report.sensors := by
    refine Reads.list (List.forall₂_map_left_iff.mpr (List.forall₂_same.mpr ?_))
    exact fun sensor hsensor => SensorReport.reads (hwords sensor hsensor) 2
  simp only [List.map_cons, List.map_nil, bind, Option.bind_some, hrunId,
    hsets.required sorted, hanalyzer, hsensors.required sorted, pure]

/-- **A run report survives its form.** It has none exactly where one of its paths is not
UTF-8. Any other is read back from its form as it was, with the octets of every path, and
also from the form with its names in order, as the program prints it. The counts are
machine words, and the texts of the times must be read back. -/
theorem json_roundtrip (report : RunReport) :
    (report.toJson? = none ↔ ∃ path ∈ report.allPaths, ¬ path.IsUtf8)
      ∧ ((∀ sensor ∈ report.sensors, sensor.HasWords) →
        (∀ set ∈ report.coverage,
          Timestamp.parse? set.generatedAt.render = some set.generatedAt) →
        ∀ value, report.toJson? = some value →
          ofJson? value = some report ∧ ofJson? value.sortNames = some report) := by
  constructor
  · rw [← Option.not_isSome_iff_eq_none, Option.isSome_iff_exists, exists_toJson?_iff]
    simp only [not_forall, exists_prop]
  · intro hwords htimes value hvalue
    have hreads := reads hwords htimes hvalue
    exact ⟨hreads false, hreads true⟩

/-- A tool that comes twice, sensors of every status, outputs of two languages; then a path
that is not UTF-8 among them. -/
theorem json_roundtrip_mixed :
    let set : CoverageReportSet := ⟨"cs", .integration,
      [⟨.opencover, "sonar.cs.opencover.it.reportsPaths", [.ofText "/a/é", .ofText "/a//b"]⟩,
        ⟨.opencover, "", []⟩], ⟨1700000000, 123000⟩⟩
    let report : RunReport := ⟨"run", [set],
      .ofList [("vbnet", ⟨[.ofText "/p"], []⟩), ("cs", ⟨[], [⟨"m", .ofText "/r"⟩]⟩)],
      [⟨"s", "m", .finished, ⟨2, 1⟩, 7⟩, ⟨"s", "n", .skipped, ⟨0, 0⟩, 0⟩,
        ⟨"t", "m", .failed "error: \"status\"", ⟨0, 0⟩, 3⟩]⟩
    let broken : RunReport :=
      { report with analyzer := report.analyzer.insert "go" ⟨[⟨[0x2F, 0xFF]⟩], []⟩ }
    (∃ value, report.toJson? = some value ∧ ofJson? value = some report
      ∧ ofJson? value.sortNames = some report) ∧ broken.toJson? = none := by
  intro set report broken
  have hform : ∃ value, report.toJson? = some value :=
    exists_toJson?_iff.mpr (by decide +kernel)
  have hwords : ∀ sensor ∈ report.sensors, sensor.HasWords := by
    intro sensor hsensor
    simp only [report, List.mem_cons, List.not_mem_nil, or_false] at hsensor
    rcases hsensor with rfl | rfl | rfl
    all_goals exact ⟨⟨by decide, by decide⟩, by decide⟩
  have htimes : ∀ set ∈ report.coverage,
      Timestamp.parse? set.generatedAt.render = some set.generatedAt := by decide +kernel
  obtain ⟨value, hvalue⟩ := hform
  refine ⟨⟨value, hvalue, (json_roundtrip report).2 hwords htimes value hvalue⟩, ?_⟩
  exact (json_roundtrip broken).1.mpr ⟨⟨[0x2F, 0xFF]⟩, by decide +kernel, by decide +kernel⟩

end RunReport

end CoverageRegistry
