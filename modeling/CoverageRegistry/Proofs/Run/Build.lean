import CoverageRegistry.Proofs.Sensor.Operations
import CoverageRegistry.Run

/-!
# Reading the collectors of several languages

The end of a run reads the collectors of some languages in order. A language that is
accepted gives its report sets and leaves its collector closed, and a closed collector
reads as before, so a language that is listed again is accepted again
(`AnalysisRun.build_accepted`). The first language that is not accepted ends the reading:
an unknown one leaves the collectors, one without reports is closed first.
-/

namespace CoverageRegistry

/-! ## Closing the collectors of some languages -/

namespace Collectors

/-- Seals the collectors of some languages. -/
def closeAll (collectors : Collectors) (languages : List String) : Collectors :=
  collectors.operateAll (languages.map fun language => (language, .sealUp))

variable {collectors : Collectors} {language : String} {c : Collector}

theorem closeAll_cons (hc : collectors.get? language = some c) (languages : List String) :
    collectors.closeAll (language :: languages)
      = closeAll (collectors.insert language c.closed) languages := by
  have hfirst : collectors.operate language .sealUp
      = collectors.insert language c.closed := by
    rw [operate, hc, ← c.sealUp_collector]
    rfl
  rw [closeAll, List.map_cons, operateAll_cons, hfirst]
  rfl

theorem closeAll_append (collectors : Collectors) (xs ys : List String) :
    collectors.closeAll (xs ++ ys) = (collectors.closeAll xs).closeAll ys := by
  rw [closeAll, List.map_append, operateAll_append]
  rfl

theorem get?_closeAll (languages : List String) (other : String) :
    ∀ collectors : Collectors,
      (collectors.closeAll languages).get? other
        = (collectors.get? other).map fun c => if other ∈ languages then c.closed else c := by
  induction languages with
  | nil => intro collectors; simp [closeAll]
  | cons language languages ih =>
    intro collectors
    have hrest : (collectors.closeAll (language :: languages)).get? other
        = ((collectors.operate language .sealUp).closeAll languages).get? other := rfl
    rw [hrest, ih, get?_operate, Option.map_map]
    congr 1
    funext c
    have hclosed : (Operation.sealUp.perform c).collector = c.closed := c.sealUp_collector
    have htwice : c.closed.closed = c.closed := rfl
    by_cases hown : other = language <;> by_cases hmem : other ∈ languages <;>
      simp [hown, hmem, hclosed, htwice]

end Collectors

namespace AnalysisRun

/-- The analyzer outputs of some languages, put into a map one after the other. -/
def outputsOf (view : String → Collector) (languages : List String)
    (outputs : TextMap AnalyzerReportSet) : TextMap AnalyzerReportSet :=
  languages.foldl (fun outputs language =>
    outputs.insert language (view language).analyzerSet) outputs

theorem get?_outputsOf (view : String → Collector) (languages : List String)
    (other : String) :
    ∀ outputs : TextMap AnalyzerReportSet,
      (outputsOf view languages outputs).get? other
        = if other ∈ languages then some (view other).analyzerSet else outputs.get? other := by
  induction languages with
  | nil => intro outputs; rfl
  | cons language languages ih =>
    intro outputs
    rw [outputsOf, List.foldl_cons]
    refine (ih _).trans ?_
    by_cases hown : other = language <;> by_cases hmem : other ∈ languages <;>
      simp [TextMap.get?_insert, hown, hmem]

/-! ## The languages that are accepted -/

variable {run : AnalysisRun} {now : Timestamp} {collectors : Collectors} {language : String}
  {c : Collector}

/-- The reader of a run may read the collector, and finds what its policy asks for. -/
def Accepts (run : AnalysisRun) (now : Timestamp) (language : String) (c : Collector) :
    Prop :=
  c.Admits run.table language
    ∧ c.firstEmpty? run.policy now language TestScope.all = none

theorem accepts_lenient (hpolicy : run.policy = .lenient)
    (hadmits : c.Admits run.table language) : run.Accepts now language c :=
  ⟨hadmits, by rw [hpolicy, Collector.firstEmpty?_lenient]⟩

theorem accepts_congr {d : Collector} (hsame : c.closed = d.closed) :
    run.Accepts now language c ↔ run.Accepts now language d := by
  show run.Accepts now language c.closed ↔ run.Accepts now language d.closed
  rw [hsame]

/-- One accepted language gives its sets and its outputs, and leaves its collector
closed. -/
theorem build_cons (hc : collectors.get? language = some c)
    (haccepts : run.Accepts now language c) (rest : List String)
    (built : List CoverageReportSet × TextMap AnalyzerReportSet) :
    let others := run.build now rest (collectors.insert language c.closed)
      (built.1 ++ TestScope.all.map (c.reportSet now language),
        built.2.insert language c.analyzerSet)
    (run.build now (language :: rest) collectors built).result = others.result
      ∧ (run.build now (language :: rest) collectors built).collectors
        = others.collectors := by
  have hfind : collectors.find language = .ok c := by
    rw [Collectors.find, hc]
  obtain ⟨hadmits, hfull⟩ := haccepts
  obtain ⟨hcollector, hresult⟩ := Collector.buildAll_of_admits hadmits run.policy now
  rw [hfull] at hresult
  -- the outputs are read from the collector that the sets left closed
  obtain ⟨houtputs, hclosed⟩ := c.closed.analyzerReports_eq
  simp only [build, hfind, hresult, hcollector, houtputs, hclosed]
  exact ⟨rfl, rfl⟩

/-- **Accepted languages are read one after the other**, and then the rest. What they
give is read off the collectors that were there before, since closing one of them changes
nothing that is read. -/
theorem build_accepted (view : String → Collector) (rest languages : List String) :
    ∀ {collectors : Collectors} {built : List CoverageReportSet × TextMap AnalyzerReportSet},
      (∀ language ∈ languages, run.Accepts now language (view language)
        ∧ ∃ c, collectors.get? language = some c ∧ c.closed = (view language).closed) →
      let others := run.build now rest (collectors.closeAll languages)
        (built.1 ++ languages.flatMap fun language =>
            TestScope.all.map ((view language).reportSet now language),
          outputsOf view languages built.2)
      (run.build now (languages ++ rest) collectors built).result = others.result
        ∧ (run.build now (languages ++ rest) collectors built).collectors
          = others.collectors := by
  induction languages with
  | nil => intro collectors built _; simp [outputsOf, Collectors.closeAll]
  | cons language languages ih =>
    intro collectors built h
    obtain ⟨haccepts, c, hc, hclosed⟩ := h language List.mem_cons_self
    -- reads see the buckets only, which `c` and its view share
    have hsets : TestScope.all.map (c.reportSet now language)
        = TestScope.all.map ((view language).reportSet now language) := by
      show TestScope.all.map (c.closed.reportSet now language)
        = TestScope.all.map ((view language).closed.reportSet now language)
      rw [hclosed]
    have houtputs : c.analyzerSet = (view language).analyzerSet := by
      show c.closed.analyzerSet = (view language).closed.analyzerSet
      rw [hclosed]
    have hrest : ∀ other ∈ languages, run.Accepts now other (view other)
        ∧ ∃ d, (collectors.insert language c.closed).get? other = some d
          ∧ d.closed = (view other).closed := by
      intro other hother
      obtain ⟨hadmits, d, hd, hsame⟩ := h other (List.mem_cons_of_mem _ hother)
      rw [TextMap.get?_insert]
      split
      · rename_i heq
        subst heq
        exact ⟨hadmits, _, rfl, hclosed⟩
      · exact ⟨hadmits, d, hd, hsame⟩
    obtain ⟨hfirst, hfirst'⟩ := build_cons hc ((accepts_congr hclosed).mpr haccepts)
      (languages ++ rest) built
    obtain ⟨hothers, hothers'⟩ := ih hrest
    rw [List.cons_append, hfirst, hfirst', hothers, hothers', hsets, houtputs,
      Collectors.closeAll_cons hc, List.flatMap_cons, List.append_assoc]
    exact ⟨rfl, rfl⟩

/-! ## The language that is not -/

theorem build_of_get?_eq_none (hnone : collectors.get? language = none) (rest : List String)
    (built : List CoverageReportSet × TextMap AnalyzerReportSet) :
    run.build now (language :: rest) collectors built
      = ⟨.error (.unknownLanguage language), collectors, []⟩ := by
  have hfind : collectors.find language = .error (.unknownLanguage language) := by
    rw [Collectors.find, hnone]
  rw [build, hfind]

/-- A language without reports in some scope is read up to the first such scope. -/
theorem build_of_firstEmpty? (hc : collectors.get? language = some c)
    (hadmits : c.Admits run.table language) {scope : TestScope}
    (hempty : c.firstEmpty? run.policy now language TestScope.all = some scope)
    (rest : List String) (built : List CoverageReportSet × TextMap AnalyzerReportSet) :
    (run.build now (language :: rest) collectors built).result
        = .error (.emptyReportSet language scope)
      ∧ (run.build now (language :: rest) collectors built).collectors
        = collectors.closeAll [language] := by
  have hfind : collectors.find language = .ok c := by
    rw [Collectors.find, hc]
  obtain ⟨hcollector, hresult⟩ := Collector.buildAll_of_admits hadmits run.policy now
  rw [hempty] at hresult
  rw [Collectors.closeAll_cons hc]
  simp only [build, hfind, hresult, hcollector]
  exact ⟨trivial, rfl⟩

/-! ## The end of a run -/

/-- The report holds what was built and all records of the run. -/
theorem finish_eq (run : AnalysisRun) (outside : Surroundings) (languages : List String) :
    let built := run.build outside.now languages run.collectors ([], .empty)
    (run.finish outside languages).result
        = built.result.map (fun built => ⟨run.runId, built.1, built.2, run.reports⟩)
      ∧ (run.finish outside languages).collectors = built.collectors := by
  intro built
  have hbuilt : built = run.build outside.now languages run.collectors ([], .empty) := rfl
  rw [finish]
  simp only [← hbuilt]
  cases built.result with
  | error error => exact ⟨rfl, rfl⟩
  | ok sets => exact ⟨rfl, rfl⟩

/-- A run whose listed languages are all accepted. -/
theorem finish_accepted {outside : Surroundings} {view : String → Collector}
    {languages : List String}
    (h : ∀ language ∈ languages, run.Accepts outside.now language (view language)
      ∧ run.collectors.get? language = some (view language)) :
    (run.finish outside languages).result
        = .ok ⟨run.runId, languages.flatMap fun language =>
              TestScope.all.map ((view language).reportSet outside.now language),
            outputsOf view languages .empty, run.reports⟩
      ∧ (run.finish outside languages).collectors = run.collectors.closeAll languages := by
  obtain ⟨hresult, hcollectors⟩ := run.finish_eq outside languages
  obtain ⟨hbuilt, hclosed⟩ := @build_accepted run outside.now view [] languages
    run.collectors ([], .empty) fun language hlanguage =>
      ⟨(h language hlanguage).1, _, (h language hlanguage).2, rfl⟩
  rw [List.append_nil] at hbuilt hclosed
  rw [hresult, hcollectors, hbuilt, hclosed]
  exact ⟨rfl, rfl⟩

/-- A run that accepts some languages and stops at the next one. -/
theorem finish_stopped {outside : Surroundings} {view : String → Collector}
    {before rest : List String}
    (h : ∀ language ∈ before, run.Accepts outside.now language (view language)
      ∧ run.collectors.get? language = some (view language))
    {error : RegistryError} {left : Collectors}
    (hstop : ∀ built,
      (run.build outside.now rest (run.collectors.closeAll before) built).result = .error error
        ∧ (run.build outside.now rest (run.collectors.closeAll before) built).collectors
          = left) :
    (run.finish outside (before ++ rest)).result = .error error
      ∧ (run.finish outside (before ++ rest)).collectors = left := by
  obtain ⟨hresult, hcollectors⟩ := run.finish_eq outside (before ++ rest)
  obtain ⟨hbuilt, hclosed⟩ := @build_accepted run outside.now view rest before
    run.collectors ([], .empty) fun language hlanguage =>
      ⟨(h language hlanguage).1, _, (h language hlanguage).2, rfl⟩
  rw [hresult, hcollectors, hbuilt, hclosed, (hstop _).1, (hstop _).2]
  exact ⟨rfl, rfl⟩

end AnalysisRun

end CoverageRegistry
