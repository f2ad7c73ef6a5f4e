import CoverageRegistry.Proofs.Sensor.Contributions
import CoverageRegistry.Proofs.TextMap
import CoverageRegistry.Run

/-!
# The tasks of a run

A run of built-in sensors is a list of tasks: a sensor of a language, to be run on a
module. A task that does not apply contributes nothing, so one step of a run is the
same for all of them: `act_cons` says that it makes the contributions of the task to
the collector of its language, until one is refused, and touches nothing else. So
what happens to one language is what its own tasks do, one after the other, on its
collector (`act_serve`), whatever tasks of other languages stand between.
-/

namespace CoverageRegistry

open AnalysisRun (Execution pairs)

/-! ## Tasks -/

@[simp] theorem BuiltIn.onlyOnLanguage_sensor (language : LanguageInfo) (b : BuiltIn) :
    (b.sensor language).descriptor.onlyOnLanguage = some language.key := by
  cases b <;> rfl

/-- A built-in sensor of a language, to be run on a module. -/
structure Task where
  module : Module
  language : LanguageInfo
  plan : BuiltIn

namespace Task

/-- The task as a pair of a run. -/
def pair (t : Task) : Module × Sensor :=
  (t.module, t.plan.sensor t.language)

/-- Whether the module has the language of the sensor. -/
def applies (t : Task) : Bool :=
  t.module.languages.contains t.language.key

theorem applies_pair (t : Task) : AnalysisRun.applies t.pair = t.applies := by
  simp only [AnalysisRun.applies, SensorDescriptor.appliesTo, pair,
    BuiltIn.onlyOnLanguage_sensor, applies]

variable (isDirectory : Path → Bool) (t : Task)

/-- The contributions of a task; none where the sensor is skipped. -/
def contributions : List Contribution :=
  if t.applies then t.plan.contributions t.language ⟨t.module, isDirectory⟩ else []

/-- The number of entries that a task reports as rejected. -/
def rejected : Nat :=
  if t.applies then t.plan.rejected t.language ⟨t.module, isDirectory⟩ else 0

/-- How a task ends on the collector of its language. -/
def ending (c : Collector) : Option Ending :=
  if t.applies then
    some (.ofAnswer (t.rejected isDirectory)
      (c.contributeAll (t.contributions isDirectory)).1)
  else none

/-- The execution of a task on the collector of its language. -/
def execution (c : Collector) : Execution :=
  ⟨t.module, t.plan.sensor t.language, t.ending isDirectory c⟩

theorem mem_contributions {x : Contribution} (h : x ∈ t.contributions isDirectory) :
    x ∈ t.plan.contributions t.language ⟨t.module, isDirectory⟩ := by
  rw [contributions] at h
  split at h
  · exact h
  · cases h

theorem admissible_contributions {x : Contribution}
    (h : x ∈ t.contributions isDirectory) : x.target.Admissible :=
  BuiltIn.admissible_contributions t.language _ (t.mem_contributions isDirectory h)

/-- A task reports as many new paths as its contributions answer; a skipped or refused
one reports none. -/
theorem contributed_execution (c : Collector) :
    (t.execution isDirectory c).outcome.contributed
      = Collector.counted (c.contributeAll (t.contributions isDirectory)).1 := by
  by_cases happlies : t.applies = true
  · rw [execution, ending, if_pos happlies]
    cases (c.contributeAll (t.contributions isDirectory)).1 <;> rfl
  · rw [execution, ending, contributions, if_neg happlies, if_neg happlies]
    rfl

/-- The status and the number of rejected entries of a task on an open collector. -/
def verdict : SensorStatus × Nat :=
  (if t.applies then .finished else .skipped, t.rejected isDirectory)

theorem verdict_execution {c : Collector} (h : c.Ready) :
    ((t.execution isDirectory c).status, (t.execution isDirectory c).outcome.rejected)
      = t.verdict isDirectory := by
  by_cases happlies : t.applies = true
  · obtain ⟨n, heq, -⟩ :=
      h.contributeAll_eq fun x hx => t.admissible_contributions isDirectory hx
    rw [execution, ending, verdict, if_pos happlies, if_pos happlies, heq]
    rfl
  · rw [execution, ending, verdict, rejected, if_neg happlies, if_neg happlies,
      if_neg happlies]
    rfl

end Task

/-! ## The pairs of a run -/

theorem AnalysisRun.sensor_mem_of_mem_pairs {modules : List Module}
    {sensors : List Sensor} {pair : Module × Sensor} (h : pair ∈ pairs modules sensors) :
    pair.2 ∈ sensors := by
  obtain ⟨module, -, h⟩ := List.mem_flatMap.mp h
  obtain ⟨sensor, hsensor, rfl⟩ := List.mem_map.mp h
  exact hsensor

/-- The sensor is one of those of a registered language. -/
def Sensor.Registered (table : LanguageTable) (sensor : Sensor) : Prop :=
  ∃ language sensors, Sensor.forLanguage table language = .ok sensors ∧ sensor ∈ sensors

theorem Sensor.Registered.exists_builtIn {table : LanguageTable} {sensor : Sensor}
    (h : sensor.Registered table) :
    ∃ plan : LanguageInfo × BuiltIn,
      table.contains plan.1.key = true ∧ plan.2.sensor plan.1 = sensor := by
  obtain ⟨key, sensors, hsensors, hmem⟩ := h
  obtain ⟨language, hlanguage, rfl⟩ := BuiltIn.exists_of_forLanguage hsensors
  obtain ⟨b, -, rfl⟩ := List.mem_map.mp hmem
  obtain ⟨hcontains, rfl⟩ := LanguageTable.contains_of_language hlanguage
  exact ⟨⟨language, b⟩, hcontains, rfl⟩

/-- A plan tells the language and the kind of every registered sensor. -/
def Plans (table : LanguageTable) (plan : Sensor → LanguageInfo × BuiltIn) : Prop :=
  ∀ sensor : Sensor, sensor.Registered table →
    table.contains (plan sensor).1.key = true
      ∧ (plan sensor).2.sensor (plan sensor).1 = sensor

theorem exists_plans (table : LanguageTable) :
    ∃ plan : Sensor → LanguageInfo × BuiltIn, Plans table plan := by
  have hplan : ∀ sensor : Sensor, ∃ plan : LanguageInfo × BuiltIn,
      sensor.Registered table →
        table.contains plan.1.key = true ∧ plan.2.sensor plan.1 = sensor := by
    intro sensor
    by_cases h : sensor.Registered table
    · obtain ⟨plan, hplan⟩ := h.exists_builtIn
      exact ⟨plan, fun _ => hplan⟩
    · exact ⟨⟨⟨"", ""⟩, .analyzerOutputs⟩, fun hregistered => absurd hregistered h⟩
  choose plan hplan using hplan
  exact ⟨plan, hplan⟩

/-- A pair of a run as a task. -/
def Task.ofPair (plan : Sensor → LanguageInfo × BuiltIn) (pair : Module × Sensor) : Task :=
  ⟨pair.1, (plan pair.2).1, (plan pair.2).2⟩

/-- The pairs of a run as tasks. -/
def Task.all (plan : Sensor → LanguageInfo × BuiltIn) (modules : List Module)
    (sensors : List Sensor) : List Task :=
  (pairs modules sensors).map (ofPair plan)

/-- Tasks of a run over a table: their languages are registered. -/
def Tasked (table : LanguageTable) (tasks : List Task) : Prop :=
  ∀ t ∈ tasks, table.contains t.language.key = true

namespace Plans

variable {table : LanguageTable} {plan : Sensor → LanguageInfo × BuiltIn}
  {modules : List Module} {sensors : List Sensor}

theorem of_mem_pairs (h : Plans table plan)
    (hsensors : ∀ sensor ∈ sensors, sensor.Registered table) {pair : Module × Sensor}
    (hpair : pair ∈ pairs modules sensors) :
    (Task.ofPair plan pair).pair = pair
      ∧ table.contains (plan pair.2).1.key = true := by
  obtain ⟨hcontains, hplan⟩ :=
    h pair.2 (hsensors pair.2 (AnalysisRun.sensor_mem_of_mem_pairs hpair))
  exact ⟨Prod.ext rfl hplan, hcontains⟩

/-- The pairs of registered sensors, with any modules, are tasks. -/
theorem map_pair (h : Plans table plan) (modules : List Module)
    (hsensors : ∀ sensor ∈ sensors, sensor.Registered table) :
    (Task.all plan modules sensors).map Task.pair = pairs modules sensors := by
  rw [Task.all, List.map_map]
  refine (List.map_congr_left fun pair hpair => ?_).trans (List.map_id _)
  exact (h.of_mem_pairs hsensors hpair).1

theorem tasked (h : Plans table plan) (modules : List Module)
    (hsensors : ∀ sensor ∈ sensors, sensor.Registered table) :
    Tasked table (Task.all plan modules sensors) := by
  intro t ht
  obtain ⟨pair, hpair, rfl⟩ := List.mem_map.mp ht
  exact (h.of_mem_pairs hsensors hpair).2

end Plans

/-! ## Running tasks -/

namespace AnalysisRun

/-- Every pair is executed once, in order. -/
theorem map_pair_executions (isDirectory : Path → Bool) (all : List (Module × Sensor)) :
    ∀ collectors : Collectors,
      (act isDirectory all collectors).executions.map
        (fun execution => (execution.module, execution.sensor)) = all := by
  induction all with
  | nil => intro collectors; rfl
  | cons pair all ih =>
    intro collectors
    rw [act]
    split
    · exact congrArg (pair :: ·) (ih _)
    · exact congrArg (pair :: ·) (ih _)

/-- One step of a run: the task makes its contributions, and the others follow. -/
theorem act_cons (isDirectory : Path → Bool) (t : Task) (rest : List (Module × Sensor))
    {collectors : Collectors} {c : Collector}
    (hc : collectors.get? t.language.key = some c) :
    let others := act isDirectory rest (collectors.insert t.language.key
      (c.contributeAll (t.contributions isDirectory)).2)
    (act isDirectory (t.pair :: rest) collectors).executions
        = t.execution isDirectory c :: others.executions
      ∧ (act isDirectory (t.pair :: rest) collectors).collectors = others.collectors := by
  intro others
  by_cases happlies : t.applies = true
  · have haction := t.plan.action_eq ⟨t.module, isDirectory⟩ hc
    have hcontributions : t.contributions isDirectory
        = t.plan.contributions t.language ⟨t.module, isDirectory⟩ := if_pos happlies
    have hrejected : t.rejected isDirectory
        = t.plan.rejected t.language ⟨t.module, isDirectory⟩ := if_pos happlies
    rw [← hcontributions, ← hrejected] at haction
    rw [act, if_pos (t.applies_pair.trans happlies), Task.execution, Task.ending,
      if_pos happlies, ← haction.1]
    simp only [Task.pair, haction.2]
    exact ⟨rfl, rfl⟩
  · -- a skipped sensor leaves the collectors, as no contribution does
    have hcontributions : t.contributions isDirectory = [] := if_neg happlies
    have hothers : others = act isDirectory rest collectors := by
      show act isDirectory rest (collectors.insert t.language.key
        (c.contributeAll (t.contributions isDirectory)).2) = _
      rw [hcontributions]
      exact congrArg (act isDirectory rest) (TextMap.insert_of_get? hc)
    rw [act, if_neg (by rw [t.applies_pair]; exact happlies), Task.execution, Task.ending,
      if_neg happlies, hothers]
    exact ⟨rfl, rfl⟩

end AnalysisRun

/-! ## The tasks of one language -/

namespace Collector

/-- Tasks run on one collector: their executions, and the collector after them. -/
def serve (isDirectory : Path → Bool) : List Task → Collector → List Execution × Collector
  | [], c => ([], c)
  | t :: tasks, c =>
    let others :=
      serve isDirectory tasks (c.contributeAll (t.contributions isDirectory)).2
    (t.execution isDirectory c :: others.1, others.2)

end Collector

/-- The tasks of a language. -/
def tasksOf (language : String) (tasks : List Task) : List Task :=
  tasks.filter fun t => t.language.key = language

theorem tasksOf_cons (language : String) (t : Task) (tasks : List Task) :
    tasksOf language (t :: tasks)
      = if t.language.key = language then t :: tasksOf language tasks
        else tasksOf language tasks := by
  simp only [tasksOf, List.filter_cons, decide_eq_true_eq]

namespace AnalysisRun

/-- The executions of the sensors of a language. -/
def executionsOf (language : String) (executions : List Execution) : List Execution :=
  executions.filter fun execution =>
    execution.sensor.descriptor.onlyOnLanguage = some language

theorem executionsOf_cons (isDirectory : Path → Bool) (language : String) (t : Task)
    (c : Collector) (executions : List Execution) :
    executionsOf language (t.execution isDirectory c :: executions)
      = if t.language.key = language then
          t.execution isDirectory c :: executionsOf language executions
        else executionsOf language executions := by
  have hlanguage : (t.execution isDirectory c).sensor.descriptor.onlyOnLanguage
      = some t.language.key := t.plan.onlyOnLanguage_sensor t.language
  simp only [executionsOf, List.filter_cons, hlanguage, Option.some.injEq,
    decide_eq_true_eq]

/-- **A language sees its own tasks only**: its collector is served by them alone, and
so their executions are the same as without the tasks of other languages. -/
theorem act_serve (isDirectory : Path → Bool) (language : String) (tasks : List Task) :
    ∀ {collectors : Collectors} {c : Collector},
      (∀ t ∈ tasks, collectors.contains t.language.key = true) →
      collectors.get? language = some c →
      let done := act isDirectory (tasks.map Task.pair) collectors
      executionsOf language done.executions
          = (c.serve isDirectory (tasksOf language tasks)).1
        ∧ done.collectors.get? language
          = some (c.serve isDirectory (tasksOf language tasks)).2 := by
  induction tasks with
  | nil => intro collectors c _ hc; exact ⟨rfl, hc⟩
  | cons t tasks ih =>
    intro collectors c hcollectors hc done
    obtain ⟨d, hd⟩ := Option.isSome_iff_exists.mp (hcollectors t List.mem_cons_self)
    obtain ⟨hexecutions, hafter⟩ := act_cons isDirectory t (tasks.map Task.pair) hd
    have hrest : ∀ u ∈ tasks, (collectors.insert t.language.key
        (d.contributeAll (t.contributions isDirectory)).2).contains u.language.key
          = true := by
      intro u hu
      rw [TextMap.contains, TextMap.get?_insert]
      split
      · rfl
      · exact hcollectors u (List.mem_cons_of_mem _ hu)
    have hdone : done = act isDirectory (t.pair :: tasks.map Task.pair) collectors := rfl
    rw [hdone, hexecutions, hafter, executionsOf_cons, tasksOf_cons]
    by_cases hown : t.language.key = language
    · subst hown
      obtain rfl := Option.some.inj (hd.symm.trans hc)
      obtain ⟨hserved, hlast⟩ := ih hrest (TextMap.get?_insert_self _ _ _)
      rw [if_pos rfl, if_pos rfl, hserved, hlast]
      exact ⟨rfl, rfl⟩
    · -- another language's task leaves the collector
      have hkept : (collectors.insert t.language.key
          (d.contributeAll (t.contributions isDirectory)).2).get? language = some c := by
        rw [TextMap.get?_insert_of_ne _ _ (Ne.symm hown)]
        exact hc
      rw [if_neg hown, if_neg hown]
      exact ih hrest hkept

end AnalysisRun

/-! ## Serving open collectors -/

/-- What tasks contribute, in order. -/
def contributionsOf (isDirectory : Path → Bool) (tasks : List Task) :
    List Contribution :=
  tasks.flatMap (Task.contributions isDirectory)

/-- An open collector takes all that its tasks contribute, and none of them fails. -/
theorem Collector.Ready.serve (isDirectory : Path → Bool) {tasks : List Task} :
    ∀ {c : Collector}, c.Ready →
      (c.serve isDirectory tasks).2 = c.contributed (contributionsOf isDirectory tasks)
        ∧ ∀ execution ∈ (c.serve isDirectory tasks).1, ∃ t ∈ tasks,
          (execution.module, execution.sensor) = t.pair
            ∧ (execution.status, execution.outcome.rejected)
              = t.verdict isDirectory := by
  induction tasks with
  | nil =>
    intro c _
    refine ⟨rfl, fun execution hexecution => ?_⟩
    cases hexecution
  | cons t tasks ih =>
    intro c h
    obtain ⟨n, heq, -⟩ :=
      h.contributeAll_eq fun x hx => t.admissible_contributions isDirectory hx
    obtain ⟨hcollector, hexecutions⟩ := ih (h.contributed (t.contributions isDirectory))
    rw [Collector.serve, heq, contributionsOf, List.flatMap_cons,
      Collector.contributed_append]
    refine ⟨hcollector, fun execution hexecution => ?_⟩
    rcases List.mem_cons.mp hexecution with rfl | hexecution
    · exact ⟨t, List.mem_cons_self, rfl, t.verdict_execution isDirectory h⟩
    · obtain ⟨u, hu, hsame⟩ := hexecutions execution hexecution
      exact ⟨u, List.mem_cons_of_mem _ hu, hsame⟩

namespace AnalysisRun

variable {isDirectory : Path → Bool} {tasks : List Task} {collectors : Collectors}

/-- An execution is one of a task, among those of its language. -/
theorem exists_task_of_mem {execution : Execution}
    (h : execution ∈ (act isDirectory (tasks.map Task.pair) collectors).executions) :
    ∃ t ∈ tasks, (execution.module, execution.sensor) = t.pair
      ∧ execution ∈ executionsOf t.language.key
        (act isDirectory (tasks.map Task.pair) collectors).executions := by
  have hpair : (execution.module, execution.sensor) ∈ tasks.map Task.pair := by
    rw [← map_pair_executions isDirectory (tasks.map Task.pair) collectors]
    exact List.mem_map_of_mem h
  obtain ⟨t, ht, hpair⟩ := List.mem_map.mp hpair
  have hsensor : t.plan.sensor t.language = execution.sensor := congrArg Prod.snd hpair
  refine ⟨t, ht, hpair.symm, List.mem_filter.mpr ⟨h, ?_⟩⟩
  rw [← hsensor, BuiltIn.onlyOnLanguage_sensor]
  exact decide_eq_true rfl

/-- A run with open collectors: every one takes what the tasks of its language
contribute, and no task fails. -/
theorem act_open (h : ∀ t ∈ tasks, ∃ c, collectors.get? t.language.key = some c ∧ c.Ready) :
    let done := act isDirectory (tasks.map Task.pair) collectors
    (∀ {language c}, collectors.get? language = some c → c.Ready →
        done.collectors.get? language
          = some (c.contributed (contributionsOf isDirectory (tasksOf language tasks))))
      ∧ ∀ execution ∈ done.executions, ∃ t ∈ tasks,
        (execution.module, execution.sensor) = t.pair
          ∧ (execution.status, execution.outcome.rejected)
            = t.verdict isDirectory := by
  have hcollectors : ∀ t ∈ tasks, collectors.contains t.language.key = true := by
    intro t ht
    obtain ⟨c, hc, -⟩ := h t ht
    exact TextMap.contains_of_get? hc
  refine ⟨fun {language c} hc hready => ?_, fun execution hexecution => ?_⟩
  · rw [(act_serve isDirectory language tasks hcollectors hc).2,
      (hready.serve isDirectory).1]
  · obtain ⟨t, ht, -, hexecution⟩ := exists_task_of_mem hexecution
    obtain ⟨c, hc, hready⟩ := h t ht
    rw [(act_serve isDirectory t.language.key tasks hcollectors hc).1] at hexecution
    obtain ⟨u, hu, hsame⟩ := (hready.serve isDirectory).2 execution hexecution
    exact ⟨u, List.mem_of_mem_filter hu, hsame⟩

end AnalysisRun

end CoverageRegistry
