import CoverageRegistry.Proofs.Collector.Operation

/-!
# A sealed collector

Sealing is the end of a collector: `Operation.perform_of_isSealed` says that no
operation changes a sealed one, so a run leaves it as it found it
(`Collector.after_of_isSealed`), and everything a later read answers is a function of
the one collector that was sealed. `Collector.sealing_is_final` collects what this
means for a run that several readers share.
-/

namespace CoverageRegistry

/-! ## One operation -/

/-- An operation that seals leaves the collector sealed. -/
theorem Operation.phase_perform_of_seals (c : Collector) (op : Operation)
    (h : op.Seals c) : (op.perform c).collector.phase = .sealed := by
  have hother : ∀ x, op ≠ .contribute x := by
    rintro x rfl
    exact h
  rcases op.collector_perform hother with ⟨-, hc⟩ | ⟨hnot, -⟩
  · rw [hc]
    rfl
  · exact absurd h hnot

/-- What a sealed collector answers to a contribution, also to an empty one. -/
theorem Contribution.add_result_of_isSealed {c : Collector} (h : c.isSealed = true)
    (x : Contribution) :
    (x.add c).result
      = .error (if x.target.Admissible then
          .registrySealed x.target.kind x.target.scope
        else .scopeMismatch x.target.kind x.target.scope) := by
  by_cases hadmissible : x.target.Admissible
  · rw [if_pos hadmissible]
    exact (add_of_isSealed h hadmissible).1
  · rw [if_neg hadmissible, add_of_not_admissible hadmissible]

/-- No operation changes a sealed collector. -/
theorem Operation.perform_of_isSealed {c : Collector} (h : c.isSealed = true)
    (op : Operation) : (op.perform c).collector = c := by
  rcases op.collector_cases c with hc | hc | ⟨x, -, hopen, -⟩
  · exact hc
  · exact hc.trans (Collector.closed_of_isSealed h)
  · rw [h] at hopen
    cases hopen

/-- A report set that is read again holds the same, at whatever time. -/
theorem Collector.buildReportSet_again (c : Collector) (reader : Aggregator)
    (now now' : Timestamp) (language : String) (scope : TestScope) :
    (∃ error,
      (c.buildReportSet reader.table reader.policy now language scope).result
          = .error error
        ∧ (c.buildReportSet reader.table reader.policy now' language scope).result
          = .error error)
      ∨ ∃ set set' : CoverageReportSet,
        (c.buildReportSet reader.table reader.policy now language scope).result
            = .ok set
          ∧ (c.buildReportSet reader.table reader.policy now' language scope).result
            = .ok set'
          ∧ set.reports = set'.reports ∧ set.digest = set'.digest := by
  by_cases hadmits : c.Admits reader.table language
  · rw [(buildReportSet_of_admits hadmits reader.policy now scope).2,
      (buildReportSet_of_admits hadmits reader.policy now' scope).2]
    have hempty : (c.reportSet now' language scope).isEmpty
        = (c.reportSet now language scope).isEmpty := rfl
    rw [hempty]
    split
    · exact .inl ⟨_, rfl, rfl⟩
    · exact .inr ⟨_, _, rfl, rfl, rfl, rfl⟩
  · refine .inl ⟨c.refusal reader.table language, ?_, ?_⟩ <;>
      rw [buildReportSet_of_not_admits hadmits]

/-! ## Runs -/

namespace Collector

/-- A run leaves a sealed collector as it is. -/
theorem after_of_isSealed {c : Collector} (h : c.isSealed = true) (ops : List Operation) :
    c.after ops = c := by
  induction ops with
  | nil => rfl
  | cons op ops ih => rw [after_cons, op.perform_of_isSealed h, ih]

/-- Every step of a run of a sealed collector finds the same collector. -/
theorem mem_history_of_isSealed {c : Collector} (h : c.isSealed = true)
    {ops : List Operation} {step : Step} (hstep : step ∈ c.history ops) :
    ∃ op, step = ⟨op, c, op.perform c⟩ := by
  obtain ⟨before, op, later, -, rfl⟩ := mem_history hstep
  rw [after_of_isSealed h]
  exact ⟨op, rfl⟩

end Collector

/-- The step sealed the collector: it found it open and left it sealed. -/
def Step.Seals (step : Step) : Prop :=
  step.before.phase ≠ .sealed ∧ step.answer.collector.phase = .sealed

/-- The step is an explicit sealing that answered that it did it. -/
def Step.sealedFirst (step : Step) : Bool :=
  match step.operation, step.answer.result with
  | .sealUp, .sealedUp first => first
  | _, _ => false

namespace Collector

/-- An explicit sealing answers whether it found the collector open. -/
theorem sealedFirst_sealUp (c : Collector) :
    Step.sealedFirst ⟨.sealUp, c, Operation.sealUp.perform c⟩ = !c.isSealed :=
  c.sealUp_result

theorem sealedFirst_of_isSealed {c : Collector} (h : c.isSealed = true) (op : Operation) :
    Step.sealedFirst ⟨op, c, op.perform c⟩ = false := by
  cases op with
  | sealUp => rw [sealedFirst_sealUp, h]; rfl
  | _ => rfl

theorem countP_sealedFirst_of_isSealed {c : Collector} (h : c.isSealed = true)
    (ops : List Operation) : (c.history ops).countP Step.sealedFirst = 0 := by
  rw [List.countP_eq_zero]
  intro step hstep
  obtain ⟨op, rfl⟩ := mem_history_of_isSealed h hstep
  simp [sealedFirst_of_isSealed h op]

/-- After an explicit sealing that did it there is no other. -/
theorem countP_sealedFirst_le_one (c : Collector) (ops : List Operation) :
    (c.history ops).countP Step.sealedFirst ≤ 1 := by
  induction ops generalizing c with
  | nil => exact Nat.zero_le 1
  | cons op ops ih =>
    rw [history, List.countP_cons]
    by_cases hop : op = .sealUp
    · -- whether this one did it or not, it leaves a sealed collector to the rest
      subst hop
      have hsealed : (Operation.sealUp.perform c).collector.isSealed = true :=
        decide_eq_true (Operation.phase_perform_of_seals c .sealUp trivial)
      rw [countP_sealedFirst_of_isSealed hsealed]
      split <;> omega
    · have hfirst : Step.sealedFirst ⟨op, c, op.perform c⟩ = false := by
        cases op with
        | sealUp => exact absurd rfl hop
        | _ => rfl
      rw [if_neg (by simp [hfirst])]
      exact ih _

/-- An explicit sealing answers that it did it exactly when it sealed the collector. -/
theorem sealedFirst_iff_seals (c : Collector) :
    Step.sealedFirst ⟨.sealUp, c, Operation.sealUp.perform c⟩ = true
      ↔ Step.Seals ⟨.sealUp, c, Operation.sealUp.perform c⟩ := by
  rw [sealedFirst_sealUp]
  constructor
  · intro hopen
    refine ⟨fun hphase => ?_, Operation.phase_perform_of_seals c .sealUp trivial⟩
    have hsealed : c.isSealed = true := decide_eq_true hphase
    rw [hsealed] at hopen
    cases hopen
  · rintro ⟨hopen, -⟩
    have hsealed : c.isSealed = false := decide_eq_false hopen
    rw [hsealed]
    rfl

/-- What follows a step of a run is a run of the collector that the step left. -/
theorem history_eq_append_cons {earlier rest : List Step} {step : Step} :
    ∀ {c : Collector} {ops : List Operation}, c.history ops = earlier ++ step :: rest →
      step.answer = step.operation.perform step.before
        ∧ ∃ later, rest = step.answer.collector.history later := by
  -- by the steps in front, which are those of the first operations
  induction earlier with
  | nil =>
    intro c ops h
    cases ops with
    | nil => cases h
    | cons op ops =>
      obtain ⟨rfl, rfl⟩ := List.cons.inj h
      exact ⟨rfl, ops, rfl⟩
  | cons first earlier ih =>
    intro c ops h
    cases ops with
    | nil => cases h
    | cons op ops => exact ih (List.cons.inj h).2

/-! ## The end of a collector -/

/-- The steps see a sealed collector that stays as it is: contributions are refused,
plain reads and the analyzer outputs are those of the collector, and what one reader
reads of a language and a scope it reads again. -/
structure Final (view : Collector) (steps : List Step) : Prop where
  isSealed : view.phase = .sealed
  staysSealed : ∀ step ∈ steps, step.answer.collector.phase = .sealed
  refused : ∀ step ∈ steps, ∀ x, step.operation = .contribute x →
    step.answer.result = .added (.error (if x.target.Admissible then
      .registrySealed x.target.kind x.target.scope
      else .scopeMismatch x.target.kind x.target.scope))
  reads : ∀ step ∈ steps, ∀ query, step.operation = .ask query →
    step.answer.result = query.reply view
  analyzerReports : ∀ step ∈ steps, step.operation = .analyzerReports →
    step.answer.result = .analyzerSet view.analyzerSet
  reportSets : ∀ s ∈ steps, ∀ t ∈ steps, ∀ reader now now' language scope,
    s.operation = .buildReportSet reader now language scope →
    t.operation = .buildReportSet reader now' language scope →
      (∃ error, s.answer.result = .reportSet (.error error)
        ∧ t.answer.result = .reportSet (.error error))
      ∨ ∃ set set' : CoverageReportSet, s.answer.result = .reportSet (.ok set)
        ∧ t.answer.result = .reportSet (.ok set')
        ∧ set.reports = set'.reports ∧ set.digest = set'.digest

/-- Every run of a sealed collector sees it as it is. -/
theorem final_history {view : Collector} (h : view.isSealed = true)
    (ops : List Operation) : view.Final (view.history ops) where
  isSealed := of_decide_eq_true h
  staysSealed := by
    intro step hstep
    obtain ⟨op, rfl⟩ := mem_history_of_isSealed h hstep
    show (op.perform view).collector.phase = .sealed
    rw [op.perform_of_isSealed h]
    exact of_decide_eq_true h
  refused := by
    intro step hstep x hop
    obtain ⟨op, rfl⟩ := mem_history_of_isSealed h hstep
    obtain rfl : op = .contribute x := hop
    exact congrArg Reply.added (x.add_result_of_isSealed h)
  reads := by
    intro step hstep query hop
    obtain ⟨op, rfl⟩ := mem_history_of_isSealed h hstep
    obtain rfl : op = .ask query := hop
    rfl
  analyzerReports := by
    intro step hstep hop
    obtain ⟨op, rfl⟩ := mem_history_of_isSealed h hstep
    obtain rfl : op = .analyzerReports := hop
    exact congrArg Reply.analyzerSet view.analyzerReports_eq.1
  reportSets := by
    intro s hs t ht reader now now' language scope hsop htop
    obtain ⟨op, rfl⟩ := mem_history_of_isSealed h hs
    obtain ⟨op', rfl⟩ := mem_history_of_isSealed h ht
    obtain rfl : op = .buildReportSet reader now language scope := hsop
    obtain rfl : op' = .buildReportSet reader now' language scope := htop
    rcases view.buildReportSet_again reader now now' language scope with
      ⟨error, hfirst, hagain⟩ | ⟨set, set', hfirst, hagain, hsame⟩
    · exact .inl ⟨error, congrArg Reply.reportSet hfirst, congrArg Reply.reportSet hagain⟩
    · exact .inr ⟨set, set', congrArg Reply.reportSet hfirst,
        congrArg Reply.reportSet hagain, hsame⟩

/-- **Sealing is final.** In every run, of whatever operations and readers, what
follows a step that seals sees one collector that stays as it is. At most one
explicit sealing answers that it did it, and it does so exactly when it is the step
that took the collector from open to sealed. -/
theorem sealing_is_final (start : Collector) (ops : List Operation) :
    (∀ earlier step rest, start.history ops = earlier ++ step :: rest →
        step.operation.Seals step.before → step.answer.collector.Final rest)
      ∧ (start.history ops).countP Step.sealedFirst ≤ 1
      ∧ ∀ step ∈ start.history ops, step.operation = .sealUp →
        (step.sealedFirst = true ↔ step.Seals) := by
  refine ⟨?_, start.countP_sealedFirst_le_one ops, ?_⟩
  · rintro earlier ⟨op, c, answer⟩ rest hrun hseals
    obtain ⟨hanswer, later, rfl⟩ := history_eq_append_cons hrun
    obtain rfl : answer = op.perform c := hanswer
    exact final_history (decide_eq_true (op.phase_perform_of_seals c hseals)) later
  · intro step hstep hop
    obtain ⟨before, op, later, -, rfl⟩ := mem_history hstep
    obtain rfl : op = .sealUp := hop
    exact sealedFirst_iff_seals _

/-- A strict read that finds no report seals all the same: afterwards even an empty
contribution is refused. -/
theorem sealing_is_final_strict :
    let reader : Aggregator := ⟨.builtin, .strict⟩
    let read := Operation.buildReportSet reader ⟨0, 0⟩ "cs" .unit
    let empty := Contribution.paths .opencover (some .unit) []
    let first : Step := ⟨read, unbound, read.perform unbound⟩
    let rest := first.answer.collector.history [.contribute empty]
    read.Seals unbound ∧ first.answer.collector.Final rest := by
  intro reader read empty first rest
  have hseals : unbound.Admits .builtin "cs" := by decide
  exact ⟨hseals, (sealing_is_final unbound [read, .contribute empty]).1 [] first rest rfl
    hseals⟩

end Collector

end CoverageRegistry
