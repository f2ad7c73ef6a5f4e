import CoverageRegistry.Proofs.Run.Task
import CoverageRegistry.Proofs.Sensor.Operations

/-!
# The collectors of a run

Whatever the sensors of a run contribute, and whoever reads or seals its collectors,
each of them stays bound to its language, counts in its total what its buckets hold,
and knows the modules of its report files (`Collector.Sound`). A step of a run changes
one collector and adds to its total what the sensor reports, so a whole run adds up:
`AnalysisRun.act_conserves`.
-/

namespace CoverageRegistry

/-! ## One collector -/

namespace Collector

/-- What holds of the collector of a language throughout a run. -/
structure Sound (language : String) (c : Collector) : Prop where
  tracks : c.Tracks
  bound : c.language = some language
  total : c.totalPaths = c.sumOfBuckets
  tagged : ∀ entry ∈ c.entries .roslyn none, entry.module.isSome = true

theorem sound_forLanguage (language : String) :
    (forLanguage language).Sound language := by
  obtain ⟨htotal, hsum⟩ := totals_fresh (some language)
  refine ⟨tracks_fresh (some language), rfl, htotal.trans hsum.symm, ?_⟩
  intro entry hentry
  cases hentry

variable {language : String} {c : Collector}

theorem Sound.perform (h : c.Sound language) {op : Operation}
    (hop : ∀ x, op = .contribute x → x.Tagged) :
    (op.perform c).collector.Sound language := by
  have hspec := op.spec h.tracks
  refine ⟨hspec.tracks, hspec.language.trans h.bound, ?_, ?_⟩
  · rw [hspec.total, sumOfBuckets_perform h.tracks, h.total]
  · -- a report file was there before, or is an item of a contribution
    intro entry hentry
    rw [entries_perform hspec] at hentry
    rcases List.mem_append.mp hentry with hentry | hentry
    · exact h.tagged entry hentry
    · obtain ⟨item, hitem, rfl⟩ := List.mem_map.mp (mem_of_mem_firstsAfter _ hentry)
      obtain ⟨x, hx, htarget, hitem⟩ := Step.mem_accepted hitem
      exact hop x hx htarget item hitem

theorem Sound.contributed {xs : List Contribution} (hxs : ∀ x ∈ xs, x.Tagged) :
    ∀ {c : Collector}, c.Sound language → (c.contributed xs).Sound language := by
  induction xs with
  | nil => intro c h; exact h
  | cons x xs ih =>
    intro c h
    have hfirst : ((Operation.contribute x).perform c).collector.Sound language := by
      refine h.perform fun y hy => ?_
      cases hy
      exact hxs x List.mem_cons_self
    exact ih (fun y hy => hxs y (List.mem_cons_of_mem _ hy)) hfirst

theorem Sound.contributeAll (h : c.Sound language) {xs : List Contribution}
    (hxs : ∀ x ∈ xs, x.target.Admissible ∧ x.Tagged) :
    (c.contributeAll xs).2.Sound language := by
  rcases (h.tracks.contributeAll fun x hx => (hxs x hx).1).1 with heq | heq
  · rw [heq]
    exact h
  · rw [heq]
    exact h.contributed fun x hx => (hxs x hx).2

theorem Sound.admits (h : c.Sound language) {table : LanguageTable}
    (htable : table.contains language = true) : c.Admits table language :=
  admits_of_language h.bound htable

end Collector

/-! ## All collectors of a run -/

namespace Collectors

/-- The collectors of a run over a table: one for every language, each sound. -/
structure Sound (table : LanguageTable) (collectors : Collectors) : Prop where
  keys : collectors.keys = table.names.keys
  sound : ∀ {language c}, collectors.get? language = some c → c.Sound language

variable {table : LanguageTable} {collectors : Collectors} {language : String}
  {c : Collector}

theorem sound_start (runId : String) (table : LanguageTable)
    (policy : EmptyReportPolicy) :
    (AnalysisRun.start runId table policy).collectors.Sound table := by
  refine ⟨List.map_map, fun {language c} hc => ?_⟩
  rw [AnalysisRun.start, TextMap.get?_map] at hc
  obtain ⟨name, -, rfl⟩ := Option.map_eq_some_iff.mp hc
  exact Collector.sound_forLanguage language

theorem Sound.toBound (h : collectors.Sound table) : collectors.Bound table :=
  ⟨h.keys, fun hc => (h.sound hc).bound⟩

theorem Sound.contains_iff (h : collectors.Sound table) (language : String) :
    TextMap.contains collectors language = true ↔ table.contains language = true :=
  h.toBound.contains_iff language

theorem Sound.get?_eq_view (h : collectors.Sound table)
    (hlanguage : table.contains language = true) :
    collectors.get? language = some (collectors.view language) :=
  h.toBound.get?_eq_view hlanguage

theorem Sound.get?_eq_none (h : collectors.Sound table)
    (hlanguage : ¬ table.contains language = true) : collectors.get? language = none :=
  h.toBound.get?_eq_none hlanguage

theorem Sound.insert (h : collectors.Sound table)
    (hc : collectors.get? language = some c) {c' : Collector}
    (hc' : c'.Sound language) : Sound table (collectors.insert language c') := by
  refine ⟨(TextMap.keys_insert (TextMap.contains_of_get? hc) c').trans h.keys, ?_⟩
  intro other d hd
  rw [TextMap.get?_insert] at hd
  split at hd
  · rename_i heq
    obtain rfl := Option.some.inj hd
    exact heq ▸ hc'
  · exact h.sound hd

/-- The total of a run is the sum over its collectors. -/
theorem totalPaths_eq (collectors : Collectors) :
    collectors.totalPaths = (collectors.values.map Collector.totalPaths).sum :=
  List.length_flatMap

theorem Sound.totalPaths_eq_sum (h : collectors.Sound table) :
    collectors.totalPaths
      = (collectors.keys.map fun language => (collectors.view language).totalPaths).sum := by
  rw [totalPaths_eq, TextMap.sum_values]
  refine congrArg List.sum (List.map_congr_left fun language hlanguage => ?_)
  rw [h.keys, ← TextMap.contains_iff_mem_keys] at hlanguage
  rw [h.get?_eq_view hlanguage]
  rfl

theorem Sound.totalPaths_congr {collectors' : Collectors} (h : collectors.Sound table)
    (h' : collectors'.Sound table)
    (hsame : ∀ language, table.contains language = true →
      (collectors.view language).totalPaths = (collectors'.view language).totalPaths) :
    collectors.totalPaths = collectors'.totalPaths := by
  rw [h.totalPaths_eq_sum, h'.totalPaths_eq_sum, h.keys, h'.keys]
  refine congrArg List.sum (List.map_congr_left fun language hlanguage => ?_)
  exact hsame language (TextMap.contains_iff_mem_keys.mpr hlanguage)

/-- A change of one collector changes the total by as much. -/
theorem totalPaths_insert (hc : collectors.get? language = some c) (c' : Collector) :
    Collectors.totalPaths (collectors.insert language c') + c.totalPaths
      = collectors.totalPaths + c'.totalPaths := by
  have hsum := TextMap.sum_insert Collector.totalPaths collectors language c'
  rw [hc] at hsum
  rw [totalPaths_eq, totalPaths_eq]
  exact hsum

end Collectors

/-! ## The steps of a run -/

namespace Task

variable (isDirectory : Path → Bool) (t : Task)

theorem sound_contributions {x : Contribution} (h : x ∈ t.contributions isDirectory) :
    x.target.Admissible ∧ x.Tagged :=
  ⟨t.admissible_contributions isDirectory h,
    BuiltIn.tagged_contributions t.language _ (t.mem_contributions isDirectory h)⟩

end Task

namespace AnalysisRun

/-- The numbers of new paths that executions report, added up. -/
def contributedBy (executions : List Execution) : Nat :=
  (executions.map fun execution => execution.outcome.contributed).sum

variable {table : LanguageTable}

/-- **The actions of a run conserve paths**: its collectors stay sound, and they gain
together what the sensors report. -/
theorem act_conserves (isDirectory : Path → Bool) {tasks : List Task}
    (htasks : Tasked table tasks) :
    ∀ {collectors : Collectors}, collectors.Sound table →
      let done := act isDirectory (tasks.map Task.pair) collectors
      done.collectors.Sound table
        ∧ done.collectors.totalPaths
          = collectors.totalPaths + contributedBy done.executions := by
  induction tasks with
  | nil => intro collectors h; exact ⟨h, rfl⟩
  | cons t tasks ih =>
    intro collectors h done
    have hc := h.get?_eq_view (htasks t List.mem_cons_self)
    generalize collectors.view t.language.key = c at hc
    obtain ⟨hexecutions, hcollectors⟩ := act_cons isDirectory t (tasks.map Task.pair) hc
    have hsound := (h.sound hc).contributeAll fun x hx =>
      t.sound_contributions isDirectory hx
    obtain ⟨hrest, htotal⟩ :=
      ih (fun u hu => htasks u (List.mem_cons_of_mem _ hu)) (h.insert hc hsound)
    -- the collector of the language gains what the task reports, the others nothing
    have hfirst := Collectors.totalPaths_insert hc
      (c.contributeAll (t.contributions isDirectory)).2
    rw [((h.sound hc).tracks.contributeAll fun x hx =>
      t.admissible_contributions isDirectory hx).2] at hfirst
    have hdone : done = act isDirectory (t.pair :: tasks.map Task.pair) collectors := rfl
    rw [hdone, hexecutions, hcollectors]
    refine ⟨hrest, ?_⟩
    rw [htotal, contributedBy, contributedBy, List.map_cons, List.sum_cons,
      t.contributed_execution]
    omega

/-- So does an execution: the collectors gain what its records tell. -/
theorem execute_conserves {run : AnalysisRun} (h : run.collectors.Sound table)
    (outside : Surroundings) (modules : List Module) {sensors : List Sensor}
    (hsensors : ∀ sensor ∈ sensors, sensor.Registered table) :
    let executed := run.execute outside modules sensors
    executed.run.collectors.Sound table
      ∧ executed.run.collectors.totalPaths = run.collectors.totalPaths
        + (executed.reports.map fun record => record.outcome.contributed).sum := by
  intro executed
  obtain ⟨plan, hplan⟩ := exists_plans table
  obtain ⟨hsound, htotal⟩ :=
    act_conserves outside.isDirectory (hplan.tasked modules hsensors) h
  rw [hplan.map_pair modules hsensors] at hsound htotal
  have hrecords : (executed.reports.map fun record => record.outcome.contributed).sum
      = contributedBy
          (act outside.isDirectory (pairs modules sensors) run.collectors).executions := by
    rw [contributedBy]
    exact congrArg List.sum List.map_map
  refine ⟨hsound, ?_⟩
  rw [hrecords]
  exact htotal

end AnalysisRun

end CoverageRegistry
