import CoverageRegistry.Proofs.Collector.Open

/-!
# Which report files a collector lists

Report files of an analyzer reach their bucket with a module or without one. The
bucket keeps the first contributor of a place, whether it has a module or not, and
the list of report files leaves out what has none. So it is the first contributor
alone that decides whether a place is listed: `Collector.roslynReports_at`. A report
file that came with its module is listed once, unless the same place was offered
before it without one (`Collector.listed_by_first_contributor`,
`Collector.report_file_hidden`).
-/

namespace CoverageRegistry

/-! ## The first of a place -/

section Firsts

variable {α : Type}

/-- Of the items that name a place, what is kept is the first; none where an item in
front names the place already. -/
theorem filter_firstsAfter (place : α → Path) (items : List α) (p : Path) :
    ∀ before : List α,
      (firstsAfter place before items).filter (fun item => (place item).SameAs p)
        = if Names place before p then []
          else (items.find? fun item => (place item).SameAs p).toList := by
  induction items with
  | nil => intro before; simp [firstsAfter]
  | cons item rest ih =>
    intro before
    have hrest := ih (before ++ [item])
    simp only [names_append, names_singleton] at hrest
    by_cases hsame : (place item).SameAs p
    · -- the item stands in front of the rest, which so keeps nothing of the place
      rw [if_pos (.inr hsame)] at hrest
      simp only [firstsAfter, Names.congr_path hsame]
      by_cases hbefore : Names place before p
      · rw [if_pos hbefore, if_pos hbefore, hrest]
      · rw [if_neg hbefore, if_neg hbefore, List.filter_cons_of_pos (by simpa using hsame),
          hrest, List.find?_cons_of_pos (by simpa using hsame)]
        rfl
    · simp only [hsame, or_false] at hrest
      rw [List.find?_cons_of_neg (by simpa using hsame), ← hrest, firstsAfter]
      split
      · rfl
      · rw [List.filter_cons_of_neg (by simpa using hsame)]

theorem filter_firsts (place : α → Path) (items : List α) (p : Path) :
    (firsts place items).filter (fun item => (place item).SameAs p)
      = (items.find? fun item => (place item).SameAs p).toList := by
  rw [firsts, filter_firstsAfter, if_neg (names_nil place p)]

end Firsts

/-! ## Listing report files -/

/-- The report file that an item is listed as; an item without a module is not
listed. -/
def Item.report? (item : Item) : Option RoslynReport :=
  item.module.map fun module => ⟨module, item.path⟩

theorem filter_report? (items : List Item) (p : Path) :
    (items.filterMap Item.report?).filter (fun report => report.path.SameAs p)
      = (items.filter fun item => item.path.SameAs p).filterMap Item.report? := by
  induction items with
  | nil => rfl
  | cons item rest ih =>
    obtain ⟨path, _ | module⟩ := item <;>
      by_cases hsame : path.SameAs p <;>
        simp [Item.report?, List.filterMap_cons, hsame, ih]

namespace Collector

variable (language : Option String) (ops : List Operation)

/-- After a run, the report files are the accepted ones, the first for each place,
less those without a module. -/
theorem roslynReports_after :
    ((fresh language).after ops).roslynReports
      = (firsts Item.path (acceptedItems .roslyn ((fresh language).history ops))).filterMap
          Item.report? := by
  rw [roslynReports, entries_after_fresh, List.filterMap_map]
  rfl

/-- A place is listed by its first contributor, if that one has a module, and by
nobody else. -/
theorem roslynReports_at (p : Path) :
    ((fresh language).after ops).roslynReports.filter (fun report => report.path.SameAs p)
      = (((acceptedItems .roslyn ((fresh language).history ops)).find?
          fun item => item.path.SameAs p).bind Item.report?).toList := by
  rw [roslynReports_after, filter_report?, filter_firsts]
  cases (acceptedItems .roslyn ((fresh language).history ops)).find?
      fun item => item.path.SameAs p with
  | none => rfl
  | some item => cases h : item.report? <;> simp [h]

theorem mem_acceptedItems {c : Collector} {ops : List Operation} {key : BucketKey}
    {item : Item} (h : item ∈ acceptedItems key (c.history ops)) :
    ∃ x, .contribute x ∈ ops ∧ x.target = key ∧ item ∈ x.items := by
  obtain ⟨step, hstep, hitem⟩ := List.mem_flatMap.mp h
  obtain ⟨before, op, later, rfl, rfl⟩ := mem_history hstep
  obtain ⟨x, rfl, htarget, hitem⟩ := Step.mem_accepted hitem
  exact ⟨x, by simp, htarget, hitem⟩

/-- **A report file is listed by its first contributor.** A place that an accepted
contribution of report files names was brought to the bucket by some first accepted
item. Whatever else the run contributes, before or after, the collector lists that
item for the place, once, if it has a module, and nothing otherwise; the analyzer
outputs that a reader gets are the same. So every report file is listed exactly once
in a run that offers none without a module. -/
theorem listed_by_first_contributor (language : Option String) (ops : List Operation)
    {step : Step} {reports : List RoslynReport} {n : Nat} {report : RoslynReport}
    (hstep : step ∈ (fresh language).history ops)
    (hcall : step.operation = .contribute (.roslynReports reports))
    (haccepted : step.answer.result = .added (.ok n)) (hreport : report ∈ reports) :
    let steps := (fresh language).history ops
    let c := (fresh language).after ops
    let ofPlace := fun listed : List RoslynReport =>
      listed.filter fun other => other.path.SameAs report.path
    ∃ first, (acceptedItems .roslyn steps).find? (fun item =>
          item.path.SameAs report.path) = some first
      ∧ ofPlace c.roslynReports = first.report?.toList
      ∧ ofPlace c.analyzerReports.result.roslynReports = first.report?.toList
      ∧ ((∀ x, .contribute x ∈ ops → x.Tagged) →
        (ofPlace c.roslynReports).length = 1) := by
  intro steps c ofPlace
  have hitem : (⟨report.path, some report.module⟩ : Item) ∈ acceptedItems .roslyn steps := by
    refine List.mem_flatMap.mpr ⟨step, hstep, ?_⟩
    simp only [Step.accepted, hcall, haccepted, Contribution.target, if_pos]
    exact List.mem_map_of_mem hreport
  cases hfirst : (acceptedItems .roslyn steps).find? fun item =>
      item.path.SameAs report.path with
  | none => simpa using List.find?_eq_none.mp hfirst _ hitem
  | some first =>
    have hlisted : ofPlace c.roslynReports = first.report?.toList := by
      show c.roslynReports.filter _ = _
      rw [roslynReports_at, hfirst]
      rfl
    refine ⟨first, rfl, hlisted, ?_, fun htagged => ?_⟩
    · rw [c.analyzerReports_eq.1]
      exact hlisted
    · obtain ⟨x, hx, htarget, hmem⟩ := mem_acceptedItems (List.mem_of_find?_eq_some hfirst)
      obtain ⟨module, hmodule⟩ := Option.isSome_iff_exists.mp (htagged x hx htarget first hmem)
      rw [hlisted, Item.report?, hmodule]
      rfl

/-- A report file that another module offers again stays with the first one. -/
theorem listed_by_first_contributor_again :
    let web := Operation.contribute (.modulePaths "web" .roslyn none [.ofText "/p//r.json"])
    let app := Operation.contribute (.roslynReports [⟨"app", .ofText "/p/r.json"⟩])
    let c := (fresh none).after [web, app, .sealUp]
    let listed := c.roslynReports.filter fun other => other.path.SameAs (.ofText "/p/r.json")
    (app.perform ((fresh none).after [web])).result = .added (.ok 0)
      ∧ listed = [⟨"web", .ofText "/p//r.json"⟩] ∧ listed.length = 1 := by
  intro web app c listed
  let before := (fresh none).after [web]
  have hanswer : (app.perform before).result = .added (.ok 0) :=
    congrArg Reply.added (by decide +kernel)
  have hstep : (⟨app, before, app.perform before⟩ : Step)
      ∈ (fresh none).history [web, app, .sealUp] := by simp [history, before]
  obtain ⟨first, hfirst, hlisted, -, hcount⟩ :=
    listed_by_first_contributor none [web, app, .sealUp] hstep rfl hanswer
      (List.mem_singleton_self _)
  have hweb : some first = some ⟨.ofText "/p//r.json", some "web"⟩ :=
    hfirst.symm.trans (by decide +kernel)
  obtain rfl := Option.some.inj hweb
  refine ⟨hanswer, hlisted, hcount fun x hx => ?_⟩
  rcases (by simpa [web, app] using hx : x = _ ∨ x = _) with rfl | rfl <;>
    simp [Contribution.Tagged, Contribution.items]

/-- A report file with a module is accepted and yet hidden, where its path was offered
before without one. -/
theorem report_file_hidden :
    let plain := Operation.contribute (.paths .roslyn none [.ofText "/p/r.json"])
    let tagged := Operation.contribute (.roslynReports [⟨"app", .ofText "/p/r.json"⟩])
    let c := (fresh none).after [plain, tagged]
    (tagged.perform ((fresh none).after [plain])).result = .added (.ok 0)
      ∧ c.snapshot .roslyn none = [.ofText "/p/r.json"]
      ∧ c.roslynReports = [] ∧ c.analyzerReports.result.roslynReports = [] :=
  ⟨congrArg Reply.added (by decide +kernel), by decide +kernel, by decide +kernel,
    by decide +kernel⟩

end Collector

end CoverageRegistry
