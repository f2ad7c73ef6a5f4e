import CoverageRegistry.Proofs.Sensor.Rejection
import CoverageRegistry.Proofs.TextMap

/-!
# What sensors can do to collectors

A sensor holds the collectors of a run, and whatever it does to them it does by their
operations, on any of them and in any order; then it ends somehow, perhaps without an
answer. `Sensor.Operates` says this of a sensor, and the built-in ones are of this kind
(`BuiltIn.operates`). No operation binds a collector to another language, and none puts
a collector in or takes one out, so a run has one collector for every language of its
table, whatever its sensors do (`Collectors.Bound.operateAll`).
-/

namespace CoverageRegistry

/-! ## One operation -/

namespace Collector

/-- A reader that knows the language may read the collector. -/
theorem admits_of_language {c : Collector} {language : String}
    (h : c.language = some language) {table : LanguageTable}
    (htable : table.contains language = true) : c.Admits table language := by
  refine ⟨htable, ?_⟩
  rw [boundElsewhere?, h, Option.filter_some_neg]
  simp

theorem exists_contributed (xs : List Contribution) :
    ∀ c : Collector, ∃ ys, (c.contributeAll xs).2 = c.contributed ys := by
  induction xs with
  | nil => intro c; exact ⟨[], rfl⟩
  | cons x xs ih =>
    intro c
    rw [contributeAll]
    split
    · exact ⟨[x], rfl⟩
    · obtain ⟨ys, hys⟩ := ih (x.add c).collector
      exact ⟨x :: ys, hys⟩

end Collector

/-! ## Operations on the collectors of a run -/

namespace Collectors

/-- Performs an operation on the collector of a language, where there is one. -/
def operate (collectors : Collectors) (language : String) (op : Operation) : Collectors :=
  match collectors.get? language with
  | none => collectors
  | some c => collectors.insert language (op.perform c).collector

/-- Performs operations, each on the collector of its language, in order. -/
def operateAll (collectors : Collectors) (calls : List (String × Operation)) : Collectors :=
  calls.foldl (fun collectors call => collectors.operate call.1 call.2) collectors

variable {table : LanguageTable} {collectors : Collectors} {language : String}
  {c : Collector}

@[simp] theorem operateAll_nil (collectors : Collectors) : collectors.operateAll [] = collectors :=
  rfl

@[simp] theorem operateAll_cons (collectors : Collectors) (call : String × Operation)
    (calls : List (String × Operation)) :
    collectors.operateAll (call :: calls)
      = (collectors.operate call.1 call.2).operateAll calls := rfl

theorem operateAll_append (collectors : Collectors) (xs ys : List (String × Operation)) :
    collectors.operateAll (xs ++ ys) = (collectors.operateAll xs).operateAll ys :=
  List.foldl_append

theorem get?_operate (collectors : Collectors) (language : String) (op : Operation)
    (other : String) :
    (collectors.operate language op).get? other
      = (collectors.get? other).map fun c =>
          if other = language then (op.perform c).collector else c := by
  unfold operate
  cases hc : collectors.get? language with
  | none =>
    by_cases hown : other = language
    · simp [hown, hc]
    · simp [hown]
  | some c =>
    by_cases hown : other = language
    · simp [hown, hc]
    · simp [TextMap.get?_insert_of_ne, hown]

theorem keys_operate (collectors : Collectors) (language : String) (op : Operation) :
    (collectors.operate language op).keys = collectors.keys := by
  unfold operate
  split
  · rfl
  · rename_i c hc
    exact TextMap.keys_insert (TextMap.contains_of_get? hc) _

/-- Operations on one collector, one after the other. -/
theorem operateAll_one (ops : List Operation) :
    ∀ {collectors : Collectors} {c : Collector}, collectors.get? language = some c →
      collectors.operateAll (ops.map fun op => (language, op))
        = collectors.insert language (c.after ops) := by
  induction ops with
  | nil => intro collectors c hc; exact (TextMap.insert_of_get? hc).symm
  | cons op ops ih =>
    intro collectors c hc
    have hfirst : collectors.operate language op
        = collectors.insert language (op.perform c).collector := by
      rw [operate, hc]
    rw [List.map_cons, operateAll_cons, hfirst, ih (TextMap.get?_insert_self _ _ _)]
    refine TextMap.ext_get? fun other => ?_
    by_cases hown : other = language <;> simp [TextMap.get?_insert, hown]

/-! ## One collector for every language -/

/-- The collectors over a table: one for every language, bound to it. -/
structure Bound (table : LanguageTable) (collectors : Collectors) : Prop where
  keys : collectors.keys = table.names.keys
  bound : ∀ {language c}, collectors.get? language = some c → c.language = some language

/-- The collector of a language, a fresh one where there is none. -/
def view (collectors : Collectors) (language : String) : Collector :=
  (collectors.get? language).getD (.forLanguage language)

namespace Bound

theorem contains_iff (h : collectors.Bound table) (language : String) :
    TextMap.contains collectors language = true ↔ table.contains language = true := by
  rw [TextMap.contains_iff_mem_keys, h.keys, ← TextMap.contains_iff_mem_keys]
  rfl

theorem get?_eq_view (h : collectors.Bound table)
    (hlanguage : table.contains language = true) :
    collectors.get? language = some (collectors.view language) := by
  obtain ⟨c, hc⟩ := Option.isSome_iff_exists.mp ((h.contains_iff language).mpr hlanguage)
  rw [view, hc, Option.getD_some]

theorem get?_eq_none (h : collectors.Bound table)
    (hlanguage : ¬ table.contains language = true) : collectors.get? language = none := by
  rw [← h.contains_iff] at hlanguage
  simpa [TextMap.contains] using hlanguage

theorem admits (h : collectors.Bound table) (hlanguage : table.contains language = true) :
    (collectors.view language).Admits table language :=
  Collector.admits_of_language (h.bound (h.get?_eq_view hlanguage)) hlanguage

theorem operate (h : collectors.Bound table) (language : String) (op : Operation) :
    (collectors.operate language op).Bound table := by
  refine ⟨(keys_operate collectors language op).trans h.keys, fun {other d} hd => ?_⟩
  rw [get?_operate] at hd
  obtain ⟨c, hc, rfl⟩ := Option.map_eq_some_iff.mp hd
  split
  · rw [Collector.language_perform, h.bound hc]
  · exact h.bound hc

theorem operateAll {calls : List (String × Operation)} :
    ∀ {collectors : Collectors}, collectors.Bound table →
      (collectors.operateAll calls).Bound table := by
  induction calls with
  | nil => intro collectors h; exact h
  | cons call calls ih => intro collectors h; exact ih (h.operate call.1 call.2)

end Bound

end Collectors

/-! ## Sensors -/

/-- A sensor that does nothing to collectors but operate on them. -/
def Sensor.Operates (sensor : Sensor) : Prop :=
  ∀ context collectors, ∃ calls,
    (sensor.action context collectors).collectors = Collectors.operateAll collectors calls

/-- A built-in sensor contributes to one collector. -/
theorem BuiltIn.operates (b : BuiltIn) (language : LanguageInfo) :
    (b.sensor language).Operates := by
  intro context collectors
  cases hc : collectors.get? language.key with
  | none =>
    rw [b.action_of_get?_eq_none language context collectors hc]
    exact ⟨[], rfl⟩
  | some c =>
    obtain ⟨xs, hxs⟩ := c.exists_contributed (b.contributions language context)
    refine ⟨(xs.map Operation.contribute).map fun op => (language.key, op), ?_⟩
    rw [(b.action_eq context hc).2, hxs, Collectors.operateAll_one _ hc]
    rfl

end CoverageRegistry
