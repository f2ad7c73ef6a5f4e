import CoverageRegistry.Proofs.Collector.Open
import CoverageRegistry.Proofs.Collector.Sealing

/-!
# The events of a collector

A collector reports what it does, and two kinds of its events are counted here: that paths
were added, and that it was sealed. They make the tally of a run. While a collector is open
the tally holds additions only, and the total has grown by what they tell; the operation
that seals the collector reports that total; and after it nothing is tallied any more.
`Accounts` says so of a stretch of a run. It holds of one operation
(`exists_accounts_perform`), it is kept where stretches are joined (`Accounts.append`), and
so it holds of a whole run (`exists_accounts_after`).
-/

namespace CoverageRegistry

namespace Event

/-- An event that says that a bucket took a contribution. -/
def isAddition : Event → Bool
  | pathsAdded .. => true
  | _ => false

/-- An event that says that a collector was sealed. -/
def isSealing : Event → Bool
  | registrySealed _ => true
  | _ => false

/-- The number of new paths that an event tells. -/
def added : Event → Nat
  | pathsAdded _ _ added _ => added
  | _ => 0

end Event

/-- The additions and the sealings among some events. -/
def tally (events : List Event) : List Event :=
  events.filter fun event => event.isAddition || event.isSealing

@[simp] theorem tally_nil : tally [] = [] := rfl

@[simp] theorem tally_append (xs ys : List Event) : tally (xs ++ ys) = tally xs ++ tally ys :=
  List.filter_append ..

/-- How many new paths some events tell. -/
def addedIn (events : List Event) : Nat :=
  (events.map Event.added).sum

@[simp] theorem addedIn_nil : addedIn [] = 0 := rfl

@[simp] theorem addedIn_cons (event : Event) (events : List Event) :
    addedIn (event :: events) = event.added + addedIn events := rfl

@[simp] theorem addedIn_append (xs ys : List Event) :
    addedIn (xs ++ ys) = addedIn xs + addedIn ys := by
  simp [addedIn]

/-- Only tallied events tell of new paths. -/
@[simp] theorem addedIn_tally (events : List Event) : addedIn (tally events) = addedIn events := by
  induction events with
  | nil => rfl
  | cons event events ih =>
    rw [tally, List.filter_cons]
    split
    · rw [addedIn_cons, addedIn_cons, ← ih]
      rfl
    · have hzero : event.added = 0 := by
        cases event with
        | pathsAdded => simp_all [Event.isAddition]
        | _ => rfl
      rw [addedIn_cons, hzero, Nat.zero_add, ← ih]
      rfl

theorem tally_of_isAddition {events : List Event}
    (h : ∀ event ∈ events, event.isAddition = true) : tally events = events :=
  List.filter_eq_self.mpr fun event hevent => by rw [h event hevent, Bool.true_or]

/-! ## Contributions -/

theorem Bucket.pushAll_le (batch : List ReportEntry) :
    ∀ b : Bucket, (b.pushAll batch).2 ≤ batch.length := by
  induction batch with
  | nil => intro b; exact Nat.le_refl 0
  | cons entry rest ih =>
    intro b
    have hfirst : (b.push entry).2.toNat ≤ 1 := Bool.toNat_le _
    have hrest := ih (b.push entry).1
    show (b.push entry).2.toNat + ((b.push entry).1.pushAll rest).2 ≤ rest.length + 1
    omega

namespace Contribution

/-- What an accepted contribution of so many new paths reports: one event, and none where
nothing was offered. -/
def additions (x : Contribution) (n : Nat) : List Event :=
  if x.items = [] then []
  else [.pathsAdded x.target.kind x.target.scope n (x.items.length - n)]

/-- What a contribution answers and reports, in one of three ways. -/
theorem add_cases (c : Collector) (x : Contribution) :
    ((x.add c).result = .error (.scopeMismatch x.target.kind x.target.scope)
        ∧ (x.add c).events = [])
      ∨ ((x.add c).result = .error (.registrySealed x.target.kind x.target.scope)
        ∧ (x.add c).events = [.contributionRejected x.target.kind x.target.scope
          (RegistryError.registrySealed x.target.kind x.target.scope).message])
      ∨ ∃ n, n ≤ x.items.length ∧ (x.add c).result = .ok n
        ∧ (x.add c).events = x.additions n := by
  have hlength : x.entries.length = x.items.length := List.length_map _
  rw [add_eq]
  by_cases hadmissible : x.target.Admissible
  · rw [if_pos hadmissible, Collector.offer]
    by_cases hsealed : c.isSealed = true
    · rw [if_pos hsealed]
      exact .inr (.inl ⟨rfl, rfl⟩)
    rw [if_neg hsealed]
    refine .inr (.inr ?_)
    by_cases hitems : x.items = []
    · have hempty : x.entries.isEmpty = true := by simp [entries, hitems]
      rw [if_pos hempty]
      exact ⟨0, Nat.zero_le _, rfl, (if_pos hitems).symm⟩
    · have hempty : ¬ x.entries.isEmpty = true := by simp [entries, hitems]
      rw [if_neg hempty]
      refine ⟨_, ?_, rfl, ?_⟩
      · exact hlength ▸ Bucket.pushAll_le x.entries _
      · rw [additions, if_neg hitems, ← hlength]
  · rw [if_neg hadmissible]
    exact .inl ⟨rfl, rfl⟩

theorem isAddition_of_mem_additions {x : Contribution} {n : Nat} {event : Event}
    (h : event ∈ x.additions n) : event.isAddition = true := by
  rw [additions] at h
  split at h
  · cases h
  · rw [List.mem_singleton.mp h]
    rfl

theorem addedIn_additions {x : Contribution} {n : Nat} (h : n ≤ x.items.length) :
    addedIn (x.additions n) = n := by
  rw [additions]
  split
  · rename_i hitems
    rw [hitems] at h
    exact (Nat.le_zero.mp h).symm
  · simp [Event.added]

end Contribution

/-! ## Reads -/

namespace Collector

theorem sealUp_events (c : Collector) :
    c.sealUp.events = if c.isSealed then [] else [.registrySealed c.totalPaths] := by
  unfold sealUp
  split <;> rfl

theorem tally_sealUp (c : Collector) : tally c.sealUp.events = c.sealUp.events := by
  rw [sealUp_events]
  split <;> rfl

variable {c : Collector} {table : LanguageTable} {language : String}
  (policy : EmptyReportPolicy) (now : Timestamp)

/-- A report set that is built is not tallied, but the sealing before it is. -/
theorem tally_buildReportSet (scope : TestScope) :
    tally (c.buildReportSet table policy now language scope).events
      = if c.Admits table language then c.sealUp.events else [] := by
  by_cases hadmits : c.Admits table language
  · rw [if_pos hadmits, ← tally_sealUp]
    unfold buildReportSet
    simp only [LanguageTable.configuration_of_contains hadmits.1 scope, hadmits.2]
    split
    · rfl
    · rw [tally_append]
      exact List.append_nil _
  · rw [if_neg hadmits, buildReportSet_of_not_admits hadmits]
    rfl

/-- Of several scopes only the first one that is read can seal. -/
theorem tally_buildScopes (scope : TestScope) (scopes : List TestScope) :
    tally (c.buildScopes table policy now language (scope :: scopes)).events
      = if c.Admits table language then c.sealUp.events else [] := by
  induction scopes generalizing c scope with
  | nil =>
    rw [buildScopes]
    simp only
    split
    · exact tally_buildReportSet policy now scope
    · rw [tally_append, tally_buildReportSet]
      exact List.append_nil _
  | cons next scopes ih =>
    rw [buildScopes]
    simp only
    split
    · exact tally_buildReportSet policy now scope
    · rename_i set hset
      have hadmits : c.Admits table language := by
        by_contra hnot
        rw [buildReportSet_of_not_admits hnot] at hset
        cases hset
      have hclosed : c.closed.sealUp.events = [] := rfl
      rw [tally_append, tally_buildReportSet,
        (buildReportSet_of_admits hadmits policy now scope).1, ih, hclosed, ite_self,
        List.append_nil]

end Collector

/-! ## One operation -/

/-- Beside contributions only the operations that seal are tallied. -/
theorem Operation.tally_perform {c : Collector} {op : Operation}
    (h : ∀ x, op ≠ .contribute x) :
    (op.Seals c → tally (op.perform c).events = c.sealUp.events)
      ∧ (¬ op.Seals c → tally (op.perform c).events = []) := by
  cases op with
  | contribute x => exact absurd rfl (h x)
  | sealUp => exact ⟨fun _ => c.tally_sealUp, fun hnot => absurd trivial hnot⟩
  | ask query => exact ⟨False.elim, fun _ => rfl⟩
  | buildReportSet reader now language scope =>
    have htally : tally (c.buildReportSet reader.table reader.policy now language scope).events
        = _ := Collector.tally_buildReportSet reader.policy now scope
    exact ⟨fun hadmits => htally.trans (if_pos hadmits),
      fun hnot => htally.trans (if_neg hnot)⟩
  | buildAll reader now language =>
    have htally : tally (c.buildAll reader.table reader.policy now language).events = _ :=
      Collector.tally_buildScopes reader.policy now .unit [.integration]
    exact ⟨fun hadmits => htally.trans (if_pos hadmits),
      fun hnot => htally.trans (if_neg hnot)⟩
  | analyzerReports => exact ⟨fun _ => c.tally_sealUp, fun hnot => absurd trivial hnot⟩

namespace Collector

/-- What the events between two states of a collector account for: the additions make up
for the difference of the totals, and behind them stands at most the sealing, with the
total at which it was done. -/
structure Accounts (c d : Collector) (additions events : List Event) : Prop where
  isAddition : ∀ event ∈ additions, event.isAddition = true
  total : d.totalPaths = c.totalPaths + addedIn additions
  tally_eq : tally events
    = additions ++ if d.isSealed then [.registrySealed d.totalPaths] else []

variable {c d e : Collector}

/-- A contribution to an open collector accounts for what it answers. -/
theorem Ready.exists_accounts_add (h : c.Ready) (x : Contribution) :
    ∃ additions, Accounts c (x.add c).collector additions (x.add c).events := by
  have htotal := h.total_add x
  have hopen := (h.add x).isOpen
  rcases x.add_cases c with ⟨hresult, hevents⟩ | ⟨hresult, hevents⟩ | ⟨n, hn, hresult, hevents⟩
  · rw [hresult] at htotal
    exact ⟨[], by simp, htotal, by rw [hevents, hopen]; rfl⟩
  · rw [hresult] at htotal
    exact ⟨[], by simp, htotal, by rw [hevents, hopen]; rfl⟩
  · rw [hresult] at htotal
    refine ⟨x.additions n, fun _ => Contribution.isAddition_of_mem_additions, ?_, ?_⟩
    · rw [htotal, Contribution.addedIn_additions hn]
      rfl
    · rw [hevents, tally_of_isAddition fun _ => Contribution.isAddition_of_mem_additions,
        hopen]
      exact (List.append_nil _).symm

/-- An operation on an open collector accounts for what it does. -/
theorem Ready.exists_accounts_perform (h : c.Ready) (op : Operation) :
    ∃ additions, Accounts c (op.perform c).collector additions (op.perform c).events := by
  by_cases hcontribute : ∃ x, op = .contribute x
  · obtain ⟨x, rfl⟩ := hcontribute
    exact h.exists_accounts_add x
  · have hother : ∀ x, op ≠ .contribute x := fun x hx => hcontribute ⟨x, hx⟩
    obtain ⟨hseals, hnot⟩ := op.tally_perform hother
    rcases op.collector_perform hother with ⟨hop, hc⟩ | ⟨hop, hc⟩
    · refine ⟨[], by simp, by rw [hc]; rfl, ?_⟩
      rw [hseals hop, c.sealUp_events, h.isOpen, hc]
      rfl
    · refine ⟨[], by simp, by rw [hc]; rfl, ?_⟩
      rw [hnot hop, hc, h.isOpen]
      rfl

/-- On a sealed collector nothing is tallied. -/
theorem tally_perform_of_isSealed (h : c.isSealed = true) (op : Operation) :
    tally (op.perform c).events = [] := by
  by_cases hcontribute : ∃ x, op = .contribute x
  · obtain ⟨x, rfl⟩ := hcontribute
    have hanswer := x.add_result_of_isSealed h
    show tally (x.add c).events = []
    rcases x.add_cases c with ⟨-, hevents⟩ | ⟨-, hevents⟩ | ⟨n, -, hresult, -⟩
    · rw [hevents, tally_nil]
    · rw [hevents]
      rfl
    · rw [hresult] at hanswer
      cases hanswer
  · obtain ⟨hseals, hnot⟩ := op.tally_perform fun x hx => hcontribute ⟨x, hx⟩
    by_cases hop : op.Seals c
    · rw [hseals hop, c.sealUp_events, if_pos h]
    · exact hnot hop

/-! ## Runs -/

/-- The events of the steps of a run, in order. -/
def emitted (steps : List Step) : List Event :=
  steps.flatMap fun step => step.answer.events

theorem emitted_history_cons (c : Collector) (op : Operation) (ops : List Operation) :
    emitted (c.history (op :: ops))
      = (op.perform c).events ++ emitted ((op.perform c).collector.history ops) :=
  List.flatMap_cons

theorem tally_emitted_of_isSealed (h : c.isSealed = true) (ops : List Operation) :
    tally (emitted (c.history ops)) = [] := by
  induction ops with
  | nil => rfl
  | cons op ops ih =>
    rw [emitted_history_cons, tally_append, tally_perform_of_isSealed h,
      op.perform_of_isSealed h, ih, List.append_nil]

/-- A stretch of a run that leaves the collector open may be followed by another one. -/
theorem Accounts.append {xs ys events events' : List Event} (h : Accounts c d xs events)
    (hopen : d.isSealed = false) (h' : Accounts d e ys events') :
    Accounts c e (xs ++ ys) (events ++ events') where
  isAddition := by
    intro event hevent
    rcases List.mem_append.mp hevent with hevent | hevent
    · exact h.isAddition event hevent
    · exact h'.isAddition event hevent
  total := by
    rw [h'.total, h.total, addedIn_append, Nat.add_assoc]
  tally_eq := by
    have hfirst := h.tally_eq
    rw [hopen] at hfirst
    rw [tally_append, hfirst, h'.tally_eq]
    simp

/-- **A run accounts for every path.** From an open collector on, the events of a run are
in their order the additions, which make up for the difference of the totals, and at most
one sealing behind them. -/
theorem Ready.exists_accounts_after (h : c.Ready) (ops : List Operation) :
    ∃ additions, Accounts c (c.after ops) additions (emitted (c.history ops)) := by
  induction ops generalizing c with
  | nil =>
    refine ⟨[], by simp, rfl, ?_⟩
    rw [after_nil, h.isOpen]
    rfl
  | cons op ops ih =>
    obtain ⟨xs, hop⟩ := h.exists_accounts_perform op
    rw [emitted_history_cons, after_cons]
    by_cases hsealed : (op.perform c).collector.isSealed = true
    · -- the rest of the run neither changes the collector nor adds to the tally
      rw [after_of_isSealed hsealed]
      refine ⟨xs, hop.isAddition, hop.total, ?_⟩
      rw [tally_append, tally_emitted_of_isSealed hsealed, List.append_nil, hop.tally_eq]
    · have hready : (op.perform c).collector.Ready :=
        ⟨by simpa using hsealed, (op.spec h.tracks).tracks⟩
      obtain ⟨ys, hops⟩ := ih hready
      exact ⟨xs ++ ys, hop.append hready.isOpen hops⟩

/-! ## What the events of a run tell -/

variable {additions events : List Event}

theorem Accounts.notMem_additions (h : Accounts c d additions events) (total : Nat) :
    Event.registrySealed total ∉ additions := by
  intro hmem
  cases h.isAddition _ hmem

theorem Accounts.addedIn_eq (h : Accounts c d additions events) :
    addedIn events = addedIn additions := by
  rw [← addedIn_tally, h.tally_eq, addedIn_append]
  split <;> rfl

/-- A sealing is reported when the collector is sealed, and with the total it has since. -/
theorem Accounts.registrySealed_mem_iff (h : Accounts c d additions events) {total : Nat} :
    Event.registrySealed total ∈ events ↔ d.isSealed = true ∧ total = d.totalPaths := by
  have htally : Event.registrySealed total ∈ tally events
      ↔ Event.registrySealed total ∈ events := by
    simp [tally, Event.isSealing]
  rw [← htally, h.tally_eq, List.mem_append, or_iff_right (h.notMem_additions total)]
  split <;> simp_all

theorem Accounts.countP_isSealing_le_one (h : Accounts c d additions events) :
    events.countP Event.isSealing ≤ 1 := by
  have htally : (tally events).countP Event.isSealing = events.countP Event.isSealing := by
    rw [tally, List.countP_filter]
    refine List.countP_congr fun event _ => ?_
    simp +contextual
  have hadditions : additions.countP Event.isSealing = 0 := by
    refine List.countP_eq_zero.mpr fun event hevent => ?_
    have haddition := h.isAddition event hevent
    cases event with
    | pathsAdded => simp [Event.isSealing]
    | _ => cases haddition
  rw [← htally, h.tally_eq, List.countP_append, hadditions, Nat.zero_add]
  exact List.countP_le_length.trans (by split <;> simp)

/-- The additions stand before the sealing. -/
theorem Accounts.of_eq_append (h : Accounts c d additions events)
    {before later : List Event} {total : Nat}
    (heq : events = before ++ .registrySealed total :: later) :
    tally before = additions ∧ tally later = [] := by
  have htally : tally events = tally before ++ .registrySealed total :: tally later := by
    rw [heq, tally_append]
    rfl
  have hsealed : d.isSealed = true :=
    (h.registrySealed_mem_iff.mp (heq ▸ List.mem_append_right _ List.mem_cons_self)).1
  rw [h.tally_eq, hsealed, if_pos rfl] at htally
  obtain ⟨hbefore, -, hlater⟩ := (List.append_cons_inj_of_notMem
    (h.notMem_additions total) List.not_mem_nil).mp htally
  exact ⟨hbefore.symm, hlater.symm⟩

/-- What a step of a run reports of a contribution. -/
theorem events_contribute (c : Collector) (x : Contribution) :
    let answer := (Operation.contribute x).perform c
    (∀ n, answer.result = .added (.ok n) →
        n ≤ x.items.length ∧ answer.events = x.additions n)
      ∧ (∀ kind scope, answer.result = .added (.error (.registrySealed kind scope)) →
        kind = x.target.kind ∧ scope = x.target.scope ∧ answer.events
          = [.contributionRejected kind scope (RegistryError.registrySealed kind scope).message])
      ∧ ∀ kind scope, answer.result = .added (.error (.scopeMismatch kind scope)) →
        answer.events = [] := by
  intro answer
  have hresult : answer.result = .added (x.add c).result := rfl
  have hevents : answer.events = (x.add c).events := rfl
  rw [hresult, hevents]
  rcases x.add_cases c with ⟨hadd, hadded⟩ | ⟨hadd, hadded⟩ | ⟨n, hn, hadd, hadded⟩ <;>
    rw [hadd, hadded]
  · refine ⟨?_, ?_, ?_⟩
    · rintro _ ⟨⟩
    · rintro _ _ ⟨⟩
    · rintro _ _ ⟨⟩
      rfl
  · refine ⟨?_, ?_, ?_⟩
    · rintro _ ⟨⟩
    · rintro _ _ ⟨⟩
      exact ⟨rfl, rfl, rfl⟩
    · rintro _ _ ⟨⟩
  · refine ⟨?_, ?_, ?_⟩
    · rintro _ ⟨⟩
      exact ⟨hn, rfl⟩
    · rintro _ _ ⟨⟩
    · rintro _ _ ⟨⟩

/-- **The events of a collector account for every path.** In every run, an accepted
contribution of `m` items reports one addition of as many paths as it answers, with the
others as duplicates, and nothing where `m` is zero; one that a sealed collector refuses
reports that, with its kind and its scope; and one that names no bucket reports nothing. A
sealing is reported at most once, with the sum of the additions before it, and no
addition comes after it. When the collector is discarded it reports the sum of all
additions, which is the total it was sealed with, if it was. -/
theorem events_account_for_paths (language : Option String) (ops : List Operation) :
    let c := (fresh language).after ops
    let steps := (fresh language).history ops
    let events := emitted steps
    (∀ step ∈ steps, ∀ x, step.operation = .contribute x →
        (∀ n, step.answer.result = .added (.ok n) → n ≤ x.items.length
          ∧ step.answer.events = if x.items = [] then []
            else [.pathsAdded x.target.kind x.target.scope n (x.items.length - n)])
        ∧ (∀ kind scope, step.answer.result = .added (.error (.registrySealed kind scope)) →
          kind = x.target.kind ∧ scope = x.target.scope ∧ step.answer.events
            = [.contributionRejected kind scope (RegistryError.registrySealed kind scope).message])
        ∧ ∀ kind scope, step.answer.result = .added (.error (.scopeMismatch kind scope)) →
          step.answer.events = [])
      ∧ events.countP Event.isSealing ≤ 1
      ∧ (∀ before total later, events = before ++ .registrySealed total :: later →
        (∀ event ∈ later, event.isAddition = false) ∧ total = addedIn before)
      ∧ c.discard = .registryDiscarded (addedIn events)
      ∧ ∀ total, Event.registrySealed total ∈ events
        ↔ c.isSealed = true ∧ c.discard = .registryDiscarded total := by
  intro c steps events
  obtain ⟨additions, h⟩ := (ready_fresh language).exists_accounts_after ops
  have htotal : c.totalPaths = addedIn additions := by
    rw [h.total, (totals_fresh language).1, Nat.zero_add]
  refine ⟨?_, h.countP_isSealing_le_one, ?_, ?_, ?_⟩
  · intro step hstep x hop
    obtain ⟨before, op, later, -, rfl⟩ := mem_history hstep
    obtain rfl : op = .contribute x := hop
    exact events_contribute _ x
  · intro before total later heq
    obtain ⟨hbefore, hlater⟩ := h.of_eq_append heq
    refine ⟨fun event hevent => ?_, ?_⟩
    · have hnot := List.filter_eq_nil_iff.mp hlater event hevent
      simp_all
    · have hmem : Event.registrySealed total ∈ events := by simp [heq]
      rw [(h.registrySealed_mem_iff.mp hmem).2, ← addedIn_tally, hbefore]
      exact htotal
  · rw [h.addedIn_eq, ← htotal]
    rfl
  · intro total
    rw [h.registrySealed_mem_iff, discard, Event.registryDiscarded.injEq, eq_comm (a := total)]

/-- Three paths to two places, a strict read that finds no report and seals all the same,
a contribution that names no bucket, and an empty one that comes too late. -/
theorem events_account_for_paths_late :
    let x := Contribution.paths .opencover (some .unit)
      [.ofText "/a/b", .ofText "/c", .ofText "/a//b"]
    let read := Operation.buildReportSet ⟨.builtin, .strict⟩ ⟨0, 0⟩ "cs" .integration
    let ops := [.contribute x, read, .contribute (.paths .protobuf (some .unit) []),
      .contribute (.protobufDirs [])]
    let answer := (Operation.contribute x).perform (fresh none)
    let before := [Event.pathsAdded .opencover (some .unit) 2 1]
    let later := [Event.contributionRejected .protobuf none
      "registry is sealed; rejected contribution for protobuf (none)"]
    answer.result = .added (.ok 2) ∧ answer.events = before
      ∧ emitted ((fresh none).history ops) = before ++ .registrySealed 2 :: later
      ∧ 2 = addedIn before ∧ ((fresh none).after ops).discard = .registryDiscarded 2 := by
  intro x read ops answer before later
  obtain ⟨hsteps, -, hsealing, -, hdiscard⟩ := events_account_for_paths none ops
  have hanswer : answer.result = .added (.ok 2) := congrArg Reply.added (by decide +kernel)
  have hevents : emitted ((fresh none).history ops) = before ++ .registrySealed 2 :: later := by
    decide +kernel
  obtain ⟨hadded, -⟩ :=
    hsteps ⟨.contribute x, fresh none, answer⟩ (by simp [history, ops, answer]) x rfl
  refine ⟨hanswer, (hadded 2 hanswer).2, hevents, (hsealing before 2 later hevents).2, ?_⟩
  exact ((hdiscard 2).mp (by simp [hevents])).2

end Collector

end CoverageRegistry
