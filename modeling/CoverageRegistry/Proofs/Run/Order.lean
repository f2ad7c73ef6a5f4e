import CoverageRegistry.Proofs.Collector.Reorder
import CoverageRegistry.Proofs.Run.Conservation

/-!
# The order of modules and sensors

Modules may share report files, so which sensor finds a file new depends on the order
of the modules and sensors of an execution. Nothing else does: a sensor sees of the
collectors only which of its paths are new, and a bucket is the set of the paths that
were offered to it. For the same reason a second execution of the same lists finds
nothing new. The main statement is `order_independent`.
-/

namespace CoverageRegistry

/-! ## Contributing again -/

theorem Bucket.pushAll_of_names {b : Bucket} (h : b.Tracks) {batch : List ReportEntry}
    (hknown : ∀ entry ∈ batch, Names ReportEntry.path b.entries entry.path) :
    b.pushAll batch = (b, 0) := by
  induction batch with
  | nil => rfl
  | cons entry batch ih =>
    have hrest := ih fun other hother => hknown other (List.mem_cons_of_mem _ hother)
    rw [pushAll, push_of_names h (hknown entry List.mem_cons_self), hrest]
    rfl

namespace Collector

theorem putBucket_of_find? {key : BucketKey} {b : Bucket} (buckets : List Bucket)
    (h : buckets.find? (fun b => b.key = key) = some b) :
    putBucket key b buckets = buckets := by
  induction buckets with
  | nil => cases h
  | cons first rest ih =>
    rw [List.find?_cons] at h
    rw [putBucket]
    by_cases hfirst : first.key = key
    · simp only [hfirst, decide_true] at h
      rw [if_pos hfirst, Option.some.inj h]
    · simp only [hfirst, decide_false] at h
      rw [if_neg hfirst, ih h]

/-- To put back a bucket that holds something changes nothing. -/
theorem putBucket_bucket {c : Collector} {key : BucketKey}
    (h : (c.bucket key).entries ≠ []) :
    putBucket key (c.bucket key) c.buckets = c.buckets := by
  refine putBucket_of_find? c.buckets ?_
  rw [Collector.bucket] at h ⊢
  cases hfind : c.buckets.find? fun b => b.key = key with
  | none =>
    rw [hfind] at h
    exact absurd rfl h
  | some b => rfl

/-- The collector knows all that a contribution offers. -/
structure Holds (c : Collector) (x : Contribution) : Prop where
  admissible : x.target.Admissible
  phase : x.items ≠ [] → c.phase = .collecting
  known : ∀ item ∈ x.items, Names ReportEntry.path (c.bucket x.target).entries item.path

/-- A contribution of known paths is accepted, counts nothing and changes nothing. -/
theorem Ready.add_of_holds {c : Collector} (h : c.Ready) {x : Contribution}
    (hx : c.Holds x) : (x.add c).result = .ok 0 ∧ (x.add c).collector = c := by
  by_cases hitems : x.items = []
  · refine ⟨?_, h.add_of_items_eq_nil hx.admissible hitems⟩
    rw [(h.accepted hx.admissible).result, Contribution.entries, hitems]
    rfl
  · have hknown : ∀ entry ∈ x.entries,
        Names ReportEntry.path (c.bucket x.target).entries entry.path := by
      intro entry hentry
      obtain ⟨item, hitem, rfl⟩ := List.mem_map.mp hentry
      exact hx.known item hitem
    have hentries : x.entries.isEmpty = false := by
      simp [Contribution.entries, hitems]
    -- the bucket holds something, so it stands among the buckets
    have hbucket : (c.bucket x.target).entries ≠ [] := by
      obtain ⟨item, hitem⟩ := List.exists_mem_of_ne_nil _ hitems
      obtain ⟨entry, hentry, -⟩ := hx.known item hitem
      exact List.ne_nil_of_mem hentry
    rw [x.add_eq, if_pos hx.admissible, offer, if_neg (by simp [h.isOpen]), hentries,
      if_neg (by decide), Bucket.pushAll_of_names (h.tracks.bucket _) hknown,
      ← hx.phase hitems]
    exact ⟨rfl, congrArg (Collector.mk c.language c.phase) (putBucket_bucket hbucket)⟩

/-- After a list of contributions the collector knows all of them. -/
theorem Ready.holds_contributed {c : Collector} (h : c.Ready) {xs : List Contribution}
    {x : Contribution} (hx : x ∈ xs) (hadmissible : x.target.Admissible) :
    (c.contributed xs).Holds x := by
  refine ⟨hadmissible, fun hitems => ?_, fun item hitem => ?_⟩
  · rw [h.phase_contributed, if_pos ⟨x, hx, hadmissible, hitems⟩]
  · have hoffered : item ∈ xs.flatMap (Contribution.offers x.target) := by
      refine List.mem_flatMap.mpr ⟨x, hx, ?_⟩
      rw [Contribution.offers, if_pos rfl]
      exact hitem
    rw [h.entries_contributed hadmissible, kept, names_firstsAfter, names_append]
    exact .inr ⟨_, List.mem_map_of_mem hoffered, rfl⟩

theorem Ready.contributeAll_of_holds {c : Collector} (h : c.Ready)
    {xs : List Contribution} (hxs : ∀ x ∈ xs, c.Holds x) :
    c.contributeAll xs = (.ok 0, c) := by
  induction xs with
  | nil => rfl
  | cons x xs ih =>
    obtain ⟨hresult, hcollector⟩ := h.add_of_holds (hxs x List.mem_cons_self)
    have hrest := ih fun y hy => hxs y (List.mem_cons_of_mem _ hy)
    simp only [contributeAll, hresult, hcollector, hrest, Except.map]

/-- Tasks that find nothing new change nothing. -/
theorem Ready.serve_of_holds (isDirectory : Path → Bool) {c : Collector} (h : c.Ready)
    {tasks : List Task} (htasks : ∀ x ∈ contributionsOf isDirectory tasks, c.Holds x) :
    (c.serve isDirectory tasks).2 = c
      ∧ ∀ execution ∈ (c.serve isDirectory tasks).1,
        execution.outcome.contributed = 0 := by
  induction tasks with
  | nil =>
    refine ⟨rfl, fun execution hexecution => ?_⟩
    cases hexecution
  | cons t tasks ih =>
    rw [contributionsOf, List.flatMap_cons] at htasks
    have hfirst := h.contributeAll_of_holds fun x hx =>
      htasks x (List.mem_append_left _ hx)
    obtain ⟨hcollector, hexecutions⟩ :=
      ih fun x hx => htasks x (List.mem_append_right _ hx)
    rw [Collector.serve, hfirst]
    refine ⟨hcollector, fun execution hexecution => ?_⟩
    rcases List.mem_cons.mp hexecution with rfl | hexecution
    · rw [t.contributed_execution, hfirst, counted]
    · exact hexecutions execution hexecution

/-! ## The paths of a bucket -/

theorem mem_snapshot_contributed {language : Option String} {xs : List Contribution}
    {kind : ReportKind} {scope : Option TestScope} {p : Path}
    (h : p ∈ ((fresh language).contributed xs).snapshot kind scope) :
    ∃ x ∈ xs, ∃ item ∈ x.items, item.path = p := by
  rw [snapshot, entries_contributed_fresh] at h
  split at h
  · obtain ⟨entry, hentry, rfl⟩ := List.mem_map.mp h
    obtain ⟨item, hitem, rfl⟩ := List.mem_map.mp hentry
    obtain ⟨x, hx, hitem⟩ := List.mem_flatMap.mp (mem_of_mem_firstsAfter _ hitem)
    rw [Contribution.offers] at hitem
    split at hitem
    · exact ⟨x, hx, item, hitem, rfl⟩
    · cases hitem
  · cases h

/-- Contributions with normal paths, in another order, leave the same paths: a normal
path is known by its place. -/
theorem snapshot_perm (language : Option String) {xs ys : List Contribution}
    (h : xs.Perm ys) (hnormal : ∀ x ∈ xs, ∀ item ∈ x.items, item.path.IsNormal)
    (kind : ReportKind) (scope : Option TestScope) :
    (((fresh language).contributed xs).snapshot kind scope).Perm
      (((fresh language).contributed ys).snapshot kind scope) := by
  have hpaths : ∀ zs : List Contribution, zs.Perm xs → ∀ p ∈
      ((fresh language).contributed zs).snapshot kind scope, p.IsNormal := by
    intro zs hzs p hp
    obtain ⟨x, hx, item, hitem, rfl⟩ := mem_snapshot_contributed hp
    exact hnormal x (hzs.mem_iff.mp hx) item hitem
  have hnodup : ∀ zs : List Contribution,
      (((fresh language).contributed zs).snapshot kind scope).Nodup :=
    fun zs => (nodup_places language zs kind scope).of_map _
  have hplaces := places_perm language h kind scope
  refine (List.perm_ext_iff_of_nodup (hnodup xs) (hnodup ys)).mpr fun p => ?_
  constructor
  · intro hp
    obtain ⟨q, hq, hsame⟩ :=
      List.mem_map.mp (hplaces.mem_iff.mp (List.mem_map_of_mem hp))
    exact (hpaths ys h.symm q hq).eq_of_sameAs (hpaths xs (.refl _) p hp) hsame ▸ hq
  · intro hp
    obtain ⟨q, hq, hsame⟩ :=
      List.mem_map.mp (hplaces.mem_iff.mpr (List.mem_map_of_mem hp))
    exact (hpaths xs (.refl _) q hq).eq_of_sameAs (hpaths ys h.symm p hp) hsame ▸ hq

end Collector

/-! ## Executions in another order -/

namespace AnalysisRun

theorem pairs_perm {modules modules' : List Module} {sensors sensors' : List Sensor}
    (hmodules : modules.Perm modules') (hsensors : sensors.Perm sensors') :
    (pairs modules sensors).Perm (pairs modules' sensors') :=
  (hmodules.flatMap_right _).trans (List.Perm.flatMap_left _ fun _ _ => hsensors.map _)

theorem contributionsOf_perm (isDirectory : Path → Bool) (language : String)
    {tasks tasks' : List Task} (h : tasks.Perm tasks') :
    (contributionsOf isDirectory (tasksOf language tasks)).Perm
      (contributionsOf isDirectory (tasksOf language tasks')) :=
  (h.filter _).flatMap_right _

theorem isNormal_of_mem_contributionsOf {isDirectory : Path → Bool} {tasks : List Task}
    {x : Contribution} (hx : x ∈ contributionsOf isDirectory tasks) {item : Item}
    (hitem : item ∈ x.items) : item.path.IsNormal := by
  obtain ⟨t, -, hx⟩ := List.mem_flatMap.mp hx
  exact BuiltIn.isNormal_of_mem_items t.language _ (t.mem_contributions isDirectory hx)
    hitem

/-- The collector of a language in a fresh run after some tasks. -/
def gathered (isDirectory : Path → Bool) (tasks : List Task) (language : String) :
    Collector :=
  (Collector.forLanguage language).contributed
    (contributionsOf isDirectory (tasksOf language tasks))

/-- Tasks in another order gather the same paths. -/
theorem gathered_perm (isDirectory : Path → Bool) (language : String)
    {tasks tasks' : List Task} (h : tasks.Perm tasks') :
    let c := gathered isDirectory tasks language
    let c' := gathered isDirectory tasks' language
    c.totalPaths = c'.totalPaths
      ∧ ∀ kind scope, (c.places kind scope).Nodup
        ∧ (c.snapshot kind scope).Perm (c'.snapshot kind scope) := by
  intro c c'
  have hcontributions := contributionsOf_perm isDirectory language h
  refine ⟨Collector.total_perm (some language) hcontributions, fun kind scope =>
    ⟨Collector.nodup_places (some language) _ kind scope, ?_⟩⟩
  exact Collector.snapshot_perm (some language) hcontributions
    (fun x hx item hitem => isNormal_of_mem_contributionsOf hx hitem) kind scope

variable {table : LanguageTable}

/-- A fresh run, by its tasks: what its collectors gather, and how its tasks end. -/
theorem act_start {tasks : List Task} (htasks : Tasked table tasks)
    (isDirectory : Path → Bool) (runId : String) (policy : EmptyReportPolicy) :
    let done :=
      act isDirectory (tasks.map Task.pair) (start runId table policy).collectors
    (∀ language, table.contains language = true →
        done.collectors.get? language = some (gathered isDirectory tasks language))
      ∧ ∀ execution ∈ done.executions, ∃ t ∈ tasks,
        (execution.module, execution.sensor) = t.pair
          ∧ (execution.status, execution.outcome.rejected)
            = t.verdict isDirectory := by
  obtain ⟨hcollectors, hexecutions⟩ := @act_open isDirectory tasks
    (start runId table policy).collectors fun t ht =>
      ⟨_, get?_start (htasks t ht) runId policy, Collector.ready_forLanguage _⟩
  refine ⟨fun language hlanguage => ?_, hexecutions⟩
  exact hcollectors (get?_start hlanguage runId policy)
    (Collector.ready_forLanguage language)

/-- Tasks that were run before change no collector, and find nothing new. -/
theorem act_again {tasks : List Task} {isDirectory : Path → Bool}
    {collectors : Collectors} (hsound : collectors.Sound table)
    (htasks : Tasked table tasks)
    (hgathered : ∀ language, table.contains language = true →
      collectors.get? language = some (gathered isDirectory tasks language)) :
    let again := act isDirectory (tasks.map Task.pair) collectors
    again.collectors = collectors
      ∧ ∀ execution ∈ again.executions, execution.outcome.contributed = 0 := by
  intro again
  have hcollectors : ∀ t ∈ tasks, collectors.contains t.language.key = true :=
    fun t ht => TextMap.contains_of_get? (hgathered _ (htasks t ht))
  have hserved : ∀ language, ((gathered isDirectory tasks language).serve isDirectory
        (tasksOf language tasks)).2 = gathered isDirectory tasks language
      ∧ ∀ execution ∈ ((gathered isDirectory tasks language).serve isDirectory
        (tasksOf language tasks)).1, execution.outcome.contributed = 0 := by
    intro language
    have hready := Collector.ready_forLanguage language
    refine (hready.contributed _).serve_of_holds isDirectory fun x hx => ?_
    obtain ⟨t, -, hmem⟩ := List.mem_flatMap.mp hx
    exact hready.holds_contributed hx (t.admissible_contributions isDirectory hmem)
  constructor
  · -- a language without a collector has none afterwards either
    refine TextMap.ext_get? fun language => ?_
    by_cases hlanguage : table.contains language = true
    · have hc := hgathered language hlanguage
      rw [(act_serve isDirectory language tasks hcollectors hc).2, (hserved language).1, hc]
    · rw [(act_conserves isDirectory htasks hsound).1.get?_eq_none hlanguage,
        hsound.get?_eq_none hlanguage]
  · intro execution hexecution
    obtain ⟨t, ht, -, hexecution⟩ := exists_task_of_mem hexecution
    have hc := hgathered _ (htasks t ht)
    rw [(act_serve isDirectory t.language.key tasks hcollectors hc).1] at hexecution
    exact (hserved _).2 execution hexecution

section Fresh

variable {plan : Sensor → LanguageInfo × BuiltIn} (hplan : Plans table plan)
  (modules : List Module) {sensors : List Sensor}
  (hsensors : ∀ sensor ∈ sensors, sensor.Registered table) (runId : String)
  (policy : EmptyReportPolicy) (outside : Surroundings)

include hplan hsensors

/-- The collectors of a fresh run after one execution. -/
theorem get?_executed {language : String} (hlanguage : table.contains language = true) :
    ((start runId table policy).execute outside modules sensors).run.collectors.get?
        language
      = some (gathered outside.isDirectory (Task.all plan modules sensors) language) := by
  have hgathered := (act_start (hplan.tasked modules hsensors) outside.isDirectory runId
    policy).1 language hlanguage
  rw [hplan.map_pair modules hsensors] at hgathered
  exact hgathered

/-- Its records: one for every pair, with the verdict of its task. -/
theorem records_executed :
    ((start runId table policy).execute outside modules sensors).reports.map
        (fun record => (record.sensor, record.module, record.status,
          record.outcome.rejected))
      = (pairs modules sensors).map fun pair =>
          (pair.2.descriptor.name, pair.1.key,
            (Task.ofPair plan pair).verdict outside.isDirectory) := by
  obtain ⟨-, hexecutions⟩ := act_start (hplan.tasked modules hsensors)
    outside.isDirectory runId policy
  rw [hplan.map_pair modules hsensors] at hexecutions
  -- both sides are read off the executions
  conv_rhs => rw [← map_pair_executions outside.isDirectory (pairs modules sensors)
    (start runId table policy).collectors]
  rw [execute, List.map_map, List.map_map]
  refine List.map_congr_left fun execution hexecution => ?_
  obtain ⟨t, ht, hpair, hverdict⟩ := hexecutions execution hexecution
  obtain ⟨pair, hmem, rfl⟩ := List.mem_map.mp ht
  rw [(hplan.of_mem_pairs hsensors hmem).1] at hpair
  subst hpair
  exact congrArg (Prod.mk _ <| Prod.mk _ ·) hverdict

end Fresh

/-- **The order of modules and sensors does not matter.** Two fresh runs over one table
execute the same modules and the same sensors of registered languages, each in an
order of its own, and find the same directories. Then every bucket of every language
holds the same paths, each place once; every pair of a module and a sensor has the
same status and the same number of rejected entries; and the numbers of new paths add
up to the same. To execute the same lists again changes no collector, and no sensor
reports a new path. -/
theorem order_independent {modules modules' : List Module} {sensors sensors' : List Sensor}
    (hsensors : ∀ sensor ∈ sensors, sensor.Registered table)
    (hmodules : modules.Perm modules') (horder : sensors.Perm sensors')
    (runId runId' : String) (policy policy' : EmptyReportPolicy)
    {outside outside' later : Surroundings}
    (hfiles : outside'.isDirectory = outside.isDirectory)
    (hlater : later.isDirectory = outside.isDirectory) :
    let executed := (start runId table policy).execute outside modules sensors
    let executed' := (start runId' table policy').execute outside' modules' sensors'
    let again := executed.run.execute later modules sensors
    (∀ language, table.contains language = true → ∃ c c',
        executed.run.collectors.get? language = some c
          ∧ executed'.run.collectors.get? language = some c'
          ∧ ∀ kind scope, (c.places kind scope).Nodup
            ∧ (c.snapshot kind scope).Perm (c'.snapshot kind scope))
      ∧ (∃ verdict : Module × Sensor → SensorStatus × Nat,
        executed.reports.map (fun record =>
              (record.sensor, record.module, record.status, record.outcome.rejected))
            = (pairs modules sensors).map (fun pair =>
              (pair.2.descriptor.name, pair.1.key, verdict pair))
          ∧ executed'.reports.map (fun record =>
              (record.sensor, record.module, record.status, record.outcome.rejected))
            = (pairs modules' sensors').map fun pair =>
              (pair.2.descriptor.name, pair.1.key, verdict pair))
      ∧ (executed.reports.map fun record => record.outcome.contributed).sum
        = (executed'.reports.map fun record => record.outcome.contributed).sum
      ∧ again.run.collectors = executed.run.collectors
      ∧ ∀ record ∈ again.reports, record.outcome.contributed = 0 := by
  intro executed executed' again
  have hsensors' : ∀ sensor ∈ sensors', sensor.Registered table :=
    fun sensor hsensor => hsensors sensor (horder.mem_iff.mpr hsensor)
  obtain ⟨plan, hplan⟩ := exists_plans table
  let tasks := Task.all plan modules sensors
  let tasks' := Task.all plan modules' sensors'
  have htasks : Tasked table tasks := hplan.tasked modules hsensors
  have hperm : tasks.Perm tasks' := (pairs_perm hmodules horder).map _
  have hc : ∀ language, table.contains language = true →
      executed.run.collectors.get? language
        = some (gathered outside.isDirectory tasks language) :=
    fun language => get?_executed hplan modules hsensors runId policy outside
  have hc' : ∀ language, table.contains language = true →
      executed'.run.collectors.get? language
        = some (gathered outside.isDirectory tasks' language) := by
    rw [← hfiles]
    exact fun language => get?_executed hplan modules' hsensors' runId' policy' outside'
  have hbalanced : executed.run.Balanced table :=
    (balanced_start runId table policy).execute outside modules hsensors
  have hbalanced' : executed'.run.Balanced table :=
    (balanced_start runId' table policy').execute outside' modules' hsensors'
  have hagain := act_again hbalanced.sound htasks hc
  rw [hplan.map_pair modules hsensors, ← hlater] at hagain
  have hgathered := fun language => gathered_perm outside.isDirectory language hperm
  refine ⟨fun language hlanguage => ⟨_, _, hc language hlanguage, hc' language hlanguage,
      (hgathered language).2⟩,
    ⟨fun pair => (Task.ofPair plan pair).verdict outside.isDirectory,
      records_executed hplan modules hsensors runId policy outside, ?_⟩, ?_, hagain.1,
    fun record hrecord => ?_⟩
  · rw [← hfiles]
    exact records_executed hplan modules' hsensors' runId' policy' outside'
  · -- the records account for the collectors, which hold as much in both runs
    refine (hbalanced.balance.trans ?_).trans hbalanced'.balance.symm
    refine hbalanced.sound.totalPaths_congr hbalanced'.sound fun language hlanguage => ?_
    rw [Collectors.view, Collectors.view, hc language hlanguage, hc' language hlanguage]
    exact (hgathered language).1
  · obtain ⟨execution, hexecution, rfl⟩ := List.mem_map.mp hrecord
    exact hagain.2 execution hexecution

/-- Two modules that share a report: which of them brings it depends on the order, what
they bring together does not. -/
theorem order_independent_shared_report :
    let outside : Surroundings := ⟨fun _ => false, ⟨0, 0⟩, 0⟩
    let module (key files : String) : Module :=
      ⟨key, .ofText "/p", .ofPairs [("sonar.cs.opencover.reportsPaths", files)], ["cs"]⟩
    let modules := [module "app" "a.xml,b.xml", module "lib" "./b.xml"]
    ∃ sensors, Sensor.forLanguage .builtin "cs" = .ok sensors ∧
      let executed := (start "first" .builtin .lenient).execute outside modules sensors
      let executed' := (start "second" .builtin .strict).execute outside modules.reverse
        sensors.reverse
      let again := executed.run.execute outside modules sensors
      executed.reports.map (fun record => record.outcome.contributed) = [0, 2, 0, 0, 0, 0]
        ∧ executed'.reports.map (fun record => record.outcome.contributed)
          = [0, 1, 0, 0, 1, 0]
        ∧ again.run.collectors = executed.run.collectors
        ∧ ∃ c c', executed.run.collectors.get? "cs" = some c
          ∧ executed'.run.collectors.get? "cs" = some c'
          ∧ (c.snapshot .opencover (some .unit)).Perm
            (c'.snapshot .opencover (some .unit)) := by
  intro outside module modules
  have hlanguage : LanguageTable.builtin.language "cs" = .ok ⟨"cs", "C#"⟩ := by decide
  refine ⟨_, BuiltIn.forLanguage_eq hlanguage, ?_⟩
  intro executed executed' again
  obtain ⟨hcollectors, -, -, hagain, -⟩ := order_independent
    (fun sensor hsensor => ⟨"cs", _, BuiltIn.forLanguage_eq hlanguage, hsensor⟩)
    modules.reverse_perm.symm (List.reverse_perm _).symm "first" "second" .lenient .strict
    (@rfl _ outside.isDirectory) (@rfl _ outside.isDirectory)
  obtain ⟨c, c', hc, hc', hbuckets⟩ := hcollectors "cs" (by decide)
  refine ⟨by decide +kernel, by decide +kernel, hagain, c, c', hc, hc', ?_⟩
  exact (hbuckets .opencover (some .unit)).2

end AnalysisRun

end CoverageRegistry
