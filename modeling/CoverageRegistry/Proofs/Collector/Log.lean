import Mathlib
import CoverageRegistry.Proofs.Collector.Operation

/-!
# A collector as a log of contributions

Seen from outside, a collector is the log of what it accepted: a bucket holds the
items of the accepted contributions to it, in their order, the first for each
place. `Operation.spec` says this of one operation, `Collector.entries_after` of a
run, and `Collector.refines_log` is the whole refinement, with the counts that the
contributions answered.
-/

namespace CoverageRegistry

/-- All pairs of a kind and a scope; those that are no bucket read as empty. -/
def BucketKey.all : List BucketKey :=
  ReportKind.all.flatMap fun kind =>
    [⟨kind, none⟩, ⟨kind, some .unit⟩, ⟨kind, some .integration⟩]

theorem BucketKey.count_all (key : BucketKey) : BucketKey.all.count key = 1 := by
  obtain ⟨kind, scope⟩ := key
  cases kind <;> rcases scope with _ | _ | _ <;> rfl

namespace Step

/-- The items that a step brought to a bucket: those of a contribution to it that
was accepted. -/
def accepted (key : BucketKey) (step : Step) : List Item :=
  match step.operation, step.answer.result with
  | .contribute x, .added (.ok _) => if x.target = key then x.items else []
  | _, _ => []

/-- How many new paths a step answered. -/
def added (step : Step) : Nat :=
  match step.operation, step.answer.result with
  | .contribute _, .added (.ok n) => n
  | _, _ => 0

variable {c : Collector}

theorem accepted_of_added {x : Contribution} {n : Nat} {key : BucketKey}
    (h : ((Operation.contribute x).perform c).result = .added (.ok n)) :
    accepted key ⟨.contribute x, c, (Operation.contribute x).perform c⟩
      = if x.target = key then x.items else [] := by
  unfold accepted
  rw [h]

theorem mem_accepted {key : BucketKey} {step : Step} {item : Item}
    (h : item ∈ step.accepted key) :
    ∃ x, step.operation = .contribute x ∧ x.target = key ∧ item ∈ x.items := by
  unfold accepted at h
  split at h
  · rename_i x n hop hanswer
    split at h
    · rename_i htarget
      exact ⟨x, hop, htarget, h⟩
    · cases h
  · cases h

theorem added_of_added {x : Contribution} {n : Nat}
    (h : ((Operation.contribute x).perform c).result = .added (.ok n)) :
    added ⟨.contribute x, c, (Operation.contribute x).perform c⟩ = n := by
  unfold added
  rw [h]

/-- A step that is no accepted contribution. -/
theorem accepted_eq_nil {op : Operation} {key : BucketKey}
    (h : ∀ x n, op = .contribute x → (op.perform c).result ≠ .added (.ok n)) :
    accepted key ⟨op, c, op.perform c⟩ = [] := by
  unfold accepted
  split
  · rename_i x n hop hanswer
    exact absurd hanswer (h x n hop)
  · rfl

theorem added_eq_zero {op : Operation}
    (h : ∀ x n, op = .contribute x → (op.perform c).result ≠ .added (.ok n)) :
    added ⟨op, c, op.perform c⟩ = 0 := by
  unfold added
  split
  · rename_i x n hop hanswer
    exact absurd hanswer (h x n hop)
  · rfl

end Step

/-- The items that the steps of a run brought to a bucket, in order. -/
def acceptedItems (key : BucketKey) (steps : List Step) : List Item :=
  steps.flatMap (Step.accepted key)

theorem acceptedItems_cons (key : BucketKey) (step : Step) (steps : List Step) :
    acceptedItems key (step :: steps) = step.accepted key ++ acceptedItems key steps :=
  List.flatMap_cons

/-! ## One operation -/

/-- What one operation does to a collector: to every bucket it adds the items it
brought that name new places, it answers their number, and it leaves the rest. -/
structure Operation.Spec (c : Collector) (op : Operation) : Prop where
  tracks : (op.perform c).collector.Tracks
  language : (op.perform c).collector.language = c.language
  entries : ∀ key, ((op.perform c).collector.bucket key).entries
    = (c.bucket key).entries
      ++ c.kept key ((Step.accepted key ⟨op, c, op.perform c⟩).map (Item.entry key))
  total : (op.perform c).collector.totalPaths
    = c.totalPaths + Step.added ⟨op, c, op.perform c⟩
  counted : ∀ x n, op = .contribute x → (op.perform c).result = .added (.ok n) →
    x.target.Admissible ∧ (c.kept x.target x.entries).length = n

/-- An operation that brings nothing and leaves the buckets. -/
theorem Operation.Spec.of_buckets_eq {c : Collector} {op : Operation}
    (htracks : c.Tracks)
    (hbuckets : (op.perform c).collector.buckets = c.buckets)
    (hlanguage : (op.perform c).collector.language = c.language)
    (hresult : ∀ x n, op = .contribute x → (op.perform c).result ≠ .added (.ok n)) :
    op.Spec c := by
  have hbucket : ∀ key, (op.perform c).collector.bucket key = c.bucket key := by
    intro key
    rw [Collector.bucket, hbuckets, Collector.bucket]
  refine ⟨?_, hlanguage, fun key => ?_, ?_, fun x n hop hanswer => ?_⟩
  · rw [Collector.Tracks, hbuckets]
    exact htracks
  · rw [hbucket, Step.accepted_eq_nil hresult, List.map_nil]
    simp [Collector.kept, firstsAfter]
  · rw [Collector.totalPaths, Collector.allEntries, hbuckets, Step.added_eq_zero hresult]
    rfl
  · exact absurd hanswer (hresult x n hop)

/-- A contribution that is refused. -/
theorem Operation.Spec.of_error {c : Collector} {x : Contribution}
    (htracks : c.Tracks) {error : RegistryError}
    (hresult : (x.add c).result = .error error)
    (hcollector : (x.add c).collector = c) : (Operation.contribute x).Spec c := by
  have hreply : ((Operation.contribute x).perform c).result = .added (.error error) := by
    show Reply.added (x.add c).result = _
    rw [hresult]
  have hsame : ((Operation.contribute x).perform c).collector = c := hcollector
  refine .of_buckets_eq htracks (by rw [hsame]) (by rw [hsame]) ?_
  intro y n _ hok
  rw [hreply] at hok
  cases hok

/-- A contribution that is accepted. -/
theorem Operation.Spec.of_accepted {c : Collector} {x : Contribution}
    (hadmissible : x.target.Admissible)
    (h : c.Accepted x.target x.entries (x.add c)) : (Operation.contribute x).Spec c := by
  have hreply : ((Operation.contribute x).perform c).result
      = .added (.ok (c.kept x.target x.entries).length) := by
    show Reply.added (x.add c).result = _
    rw [h.result]
  refine ⟨h.tracks, h.language, fun key => ?_, ?_, fun y n hop hanswer => ?_⟩
  · rw [Step.accepted_of_added hreply]
    refine (h.entries key).trans ?_
    by_cases hkey : key = x.target
    · subst hkey
      rw [if_pos rfl, if_pos rfl]
      rfl
    · rw [if_neg hkey, if_neg (Ne.symm hkey)]
      rfl
  · rw [Step.added_of_added hreply]
    exact h.total
  · cases hop
    rw [hreply] at hanswer
    cases hanswer
    exact ⟨hadmissible, rfl⟩

/-- Nothing is ever accepted for a pair that is no bucket. -/
theorem Operation.Spec.accepted_of_not_admissible {c : Collector} {op : Operation}
    (h : op.Spec c) {key : BucketKey} (hkey : ¬ key.Admissible) :
    Step.accepted key ⟨op, c, op.perform c⟩ = [] := by
  unfold Step.accepted
  split
  · rename_i x n hop hanswer
    have hadmissible := (h.counted x n hop hanswer).1
    have hne : x.target ≠ key := by
      rintro rfl
      exact hkey hadmissible
    exact if_neg hne
  · rfl

/-- Every operation keeps to its specification. -/
theorem Operation.spec {c : Collector} (htracks : c.Tracks) (op : Operation) :
    op.Spec c := by
  -- the contributions are one case, by the check of the scope and the phase
  by_cases hcontribute : ∃ x, op = .contribute x
  · obtain ⟨x, rfl⟩ := hcontribute
    by_cases hadmissible : x.target.Admissible
    · by_cases hsealed : c.isSealed = true
      · obtain ⟨hresult, hcollector⟩ := Contribution.add_of_isSealed hsealed hadmissible
        exact .of_error htracks hresult hcollector
      · exact .of_accepted hadmissible
          (Contribution.accepted_add (by simpa using hsealed) htracks hadmissible)
    · have hadd := Contribution.add_of_not_admissible hadmissible c
      exact .of_error htracks (congrArg Collector.Answer.result hadd)
        (congrArg Collector.Answer.collector hadd)
  · have hother : ∀ x, op ≠ .contribute x := fun x hx => hcontribute ⟨x, hx⟩
    refine .of_buckets_eq htracks (Operation.buckets_perform hother) ?_
      fun x _ hop => absurd hop (hother x)
    rcases op.collector_perform hother with ⟨-, hc⟩ | ⟨-, hc⟩ <;> rw [hc]
    rfl

/-! ## Runs -/

namespace Collector

theorem tracks_fresh (language : Option String) : (fresh language).Tracks := by
  intro b hb
  rw [fresh_eq] at hb
  cases hb

theorem Tracks.after {c : Collector} (h : c.Tracks) (ops : List Operation) :
    (c.after ops).Tracks :=
  after_induction (P := Tracks) (fun h op => (op.spec h).tracks) h ops

/-- A run adds to a bucket, of the items it brought, the first for each new place. -/
theorem Tracks.entries_after {key : BucketKey} {c : Collector} (h : c.Tracks)
    (ops : List Operation) :
    ((c.after ops).bucket key).entries
      = (c.bucket key).entries
        ++ c.kept key ((acceptedItems key (c.history ops)).map (Item.entry key)) := by
  induction ops generalizing c with
  | nil => simp [acceptedItems, history, kept, firstsAfter]
  | cons op ops ih =>
    have hspec := op.spec h
    have hrun := ih hspec.tracks
    rw [kept, hspec.entries key] at hrun
    rw [after_cons, hrun, history, acceptedItems_cons, List.map_append, kept, kept,
      firstsAfter_append, List.append_assoc]
    -- in front of the later items stand the same places, kept or not
    exact congrArg _ (congrArg _ (firstsAfter_congr _ fun _ => names_firstsAfter _))

theorem bucket_fresh (language : Option String) (key : BucketKey) :
    ((fresh language).bucket key).entries = [] := by
  rw [fresh_eq]
  rfl

/-- The entries of a pair of a kind and a scope are those of its bucket, where it is
one. -/
theorem entries_eq (c : Collector) (kind : ReportKind) (scope : Option TestScope) :
    c.entries kind scope
      = if (BucketKey.mk kind scope).Admissible then (c.bucket ⟨kind, scope⟩).entries
        else [] := by
  unfold entries BucketKey.make
  by_cases h : (BucketKey.mk kind scope).Admissible
  · rw [if_pos h, if_pos h]
  · rw [if_neg h, if_neg h]

theorem acceptedItems_of_not_admissible {c : Collector} (h : c.Tracks) {key : BucketKey}
    (hkey : ¬ key.Admissible) (ops : List Operation) :
    acceptedItems key (c.history ops) = [] := by
  induction ops generalizing c with
  | nil => rfl
  | cons op ops ih =>
    have hspec := op.spec h
    rw [history, acceptedItems_cons, ih hspec.tracks, List.append_nil]
    exact hspec.accepted_of_not_admissible hkey

/-- The entries after a run of a fresh collector: the accepted items, the first for
each place. -/
theorem entries_after_fresh (language : Option String) (ops : List Operation)
    (kind : ReportKind) (scope : Option TestScope) :
    ((fresh language).after ops).entries kind scope
      = (firsts Item.path (acceptedItems ⟨kind, scope⟩
          ((fresh language).history ops))).map (Item.entry ⟨kind, scope⟩) := by
  rw [entries_eq]
  by_cases h : (BucketKey.mk kind scope).Admissible
  · rw [if_pos h, (tracks_fresh language).entries_after, kept, bucket_fresh,
      List.nil_append]
    exact (map_firsts ReportEntry.path (Item.entry ⟨kind, scope⟩) _).symm
  · rw [if_neg h, acceptedItems_of_not_admissible (tracks_fresh language) h]
    rfl

/-! ## Totals -/

theorem sum_map_ite (keys : List BucketKey) (key : BucketKey) (n : Nat) :
    (keys.map fun other => if other = key then n else 0).sum = keys.count key * n := by
  induction keys with
  | nil => simp
  | cons first rest ih =>
    rw [List.map_cons, List.sum_cons, ih, List.count_cons]
    by_cases h : first = key
    · simp [h, Nat.add_mul, Nat.add_comm]
    · simp [h]

/-- The paths of all buckets, counted bucket by bucket. -/
def sumOfBuckets (c : Collector) : Nat :=
  (BucketKey.all.map fun key => (c.entries key.kind key.scope).length).sum

/-- What one operation adds to the entries of a pair of a kind and a scope. -/
theorem entries_perform {c : Collector} {op : Operation} (h : op.Spec c)
    (kind : ReportKind) (scope : Option TestScope) :
    (op.perform c).collector.entries kind scope
      = c.entries kind scope
        ++ c.kept ⟨kind, scope⟩ ((Step.accepted ⟨kind, scope⟩
            ⟨op, c, op.perform c⟩).map (Item.entry ⟨kind, scope⟩)) := by
  rw [entries_eq, entries_eq]
  by_cases hkey : (BucketKey.mk kind scope).Admissible
  · rw [if_pos hkey, if_pos hkey]
    exact h.entries ⟨kind, scope⟩
  · rw [if_neg hkey, if_neg hkey, h.accepted_of_not_admissible hkey]
    rfl

/-- An accepted contribution appends as many entries as it answers, to its bucket
alone. -/
theorem appended_perform {c : Collector} {x : Contribution} {n : Nat}
    (h : (Operation.contribute x).Spec c)
    (hanswer : ((Operation.contribute x).perform c).result = .added (.ok n)) :
    ∃ appended : List ReportEntry, appended.length = n ∧ ∀ kind scope,
      ((Operation.contribute x).perform c).collector.entries kind scope
        = c.entries kind scope
          ++ if BucketKey.mk kind scope = x.target then appended else [] := by
  refine ⟨c.kept x.target x.entries, (h.counted x n rfl hanswer).2, fun kind scope => ?_⟩
  rw [entries_perform h, Step.accepted_of_added hanswer]
  by_cases hkey : BucketKey.mk kind scope = x.target
  · rw [if_pos hkey, if_pos hkey.symm, hkey]
    rfl
  · rw [if_neg hkey, if_neg (Ne.symm hkey)]
    rfl

/-- Any other operation adds nothing. -/
theorem entries_perform_of_not_added {c : Collector} {op : Operation} (h : op.Spec c)
    (hnone : ∀ x n, op = .contribute x → (op.perform c).result ≠ .added (.ok n))
    (kind : ReportKind) (scope : Option TestScope) :
    (op.perform c).collector.entries kind scope = c.entries kind scope := by
  rw [entries_perform h, Step.accepted_eq_nil hnone]
  exact List.append_nil _

/-- What one operation adds to the buckets, counted bucket by bucket, is what it
answers. -/
theorem sumOfBuckets_perform {c : Collector} (h : c.Tracks) (op : Operation) :
    (op.perform c).collector.sumOfBuckets
      = c.sumOfBuckets + Step.added ⟨op, c, op.perform c⟩ := by
  have hspec := op.spec h
  -- only an accepted contribution answers a number, and only its bucket grows
  by_cases hcontribute : ∃ x n, op = .contribute x
      ∧ (op.perform c).result = .added (.ok n)
  · obtain ⟨x, n, rfl, hanswer⟩ := hcontribute
    obtain ⟨appended, hlength, hentries⟩ := appended_perform hspec hanswer
    have hlengths : ∀ key : BucketKey,
        (((Operation.contribute x).perform c).collector.entries key.kind key.scope).length
          = (c.entries key.kind key.scope).length + if key = x.target then n else 0 := by
      intro key
      rw [hentries, List.length_append]
      split
      · rw [hlength]
      · rfl
    simp only [sumOfBuckets, hlengths, List.sum_map_add, sum_map_ite,
      BucketKey.count_all, Nat.one_mul, Step.added_of_added hanswer]
  · have hnone : ∀ x n, op = .contribute x → (op.perform c).result ≠ .added (.ok n) :=
      fun x n hop hanswer => hcontribute ⟨x, n, hop, hanswer⟩
    simp only [sumOfBuckets, entries_perform_of_not_added hspec hnone,
      Step.added_eq_zero hnone, Nat.add_zero]

/-- A run adds the numbers it answers, to the total and to the buckets alike. -/
theorem totals_after {c : Collector} (h : c.Tracks) (ops : List Operation) :
    (c.after ops).totalPaths = c.totalPaths + ((c.history ops).map Step.added).sum
      ∧ (c.after ops).sumOfBuckets
        = c.sumOfBuckets + ((c.history ops).map Step.added).sum := by
  induction ops generalizing c with
  | nil => simp [history]
  | cons op ops ih =>
    have hspec := op.spec h
    obtain ⟨htotal, hsum⟩ := ih hspec.tracks
    rw [hspec.total] at htotal
    rw [sumOfBuckets_perform h] at hsum
    rw [after_cons, history, List.map_cons, List.sum_cons, ← Nat.add_assoc,
      ← Nat.add_assoc]
    exact ⟨htotal, hsum⟩

theorem totals_fresh (language : Option String) :
    (fresh language).totalPaths = 0 ∧ (fresh language).sumOfBuckets = 0 := by
  refine ⟨by rw [fresh_eq]; rfl, ?_⟩
  simp [sumOfBuckets, entries_eq, bucket_fresh]

/-- **A collector is the log of what it accepted.** After any run of a fresh
collector, the entries of a pair of a kind and a scope are the items of the accepted
contributions to it, in order, the first for each place, with its octets and its
module; the snapshot is their paths; a pair that is no bucket reads as empty. A
contribution is accepted exactly when it names a bucket and the collector is open;
one that answers a number appended that many entries to its bucket and touched no
other, and the total is the sum over all buckets and the sum of all answered
numbers. -/
theorem refines_log (language : Option String) (ops : List Operation) :
    let c := (fresh language).after ops
    let steps := (fresh language).history ops
    (∀ kind scope, c.entries kind scope
        = (firsts Item.path (acceptedItems ⟨kind, scope⟩ steps)).map
            (Item.entry ⟨kind, scope⟩))
      ∧ (∀ kind scope, c.snapshot kind scope
        = (firsts Item.path (acceptedItems ⟨kind, scope⟩ steps)).map Item.path)
      ∧ (∀ kind scope, ¬ (BucketKey.mk kind scope).Admissible →
        c.entries kind scope = [])
      ∧ (∀ step ∈ steps, ∀ x, step.operation = .contribute x →
        ((∃ n, step.answer.result = .added (.ok n))
          ↔ x.target.Admissible ∧ step.before.isSealed = false))
      ∧ (∀ step ∈ steps, ∀ x n, step.operation = .contribute x →
        step.answer.result = .added (.ok n) →
          ∃ appended : List ReportEntry, appended.length = n ∧ ∀ kind scope,
            step.answer.collector.entries kind scope
              = step.before.entries kind scope
                ++ if BucketKey.mk kind scope = x.target then appended else [])
      ∧ c.totalPaths
        = (BucketKey.all.map fun key => (c.entries key.kind key.scope).length).sum
      ∧ c.totalPaths = (steps.map Step.added).sum := by
  intro c steps
  have hentries : ∀ kind scope, c.entries kind scope
      = (firsts Item.path (acceptedItems ⟨kind, scope⟩ steps)).map
          (Item.entry ⟨kind, scope⟩) := entries_after_fresh language ops
  obtain ⟨htotal, hsum⟩ := totals_after (tracks_fresh language) ops
  obtain ⟨htotal₀, hsum₀⟩ := totals_fresh language
  rw [htotal₀, Nat.zero_add] at htotal
  rw [hsum₀, Nat.zero_add] at hsum
  refine ⟨hentries, fun kind scope => ?_, fun kind scope hkey => ?_, ?_, ?_,
    htotal.trans hsum.symm, htotal⟩
  · rw [snapshot, hentries, List.map_map]
    rfl
  · rw [entries_eq, if_neg hkey]
  · intro step hstep x hop
    obtain ⟨before, op, later, rfl, rfl⟩ := mem_history hstep
    obtain rfl : op = .contribute x := hop
    rw [← x.exists_ok_add_iff ((tracks_fresh language).after before)]
    exact exists_congr fun n => ⟨Reply.added.inj, congrArg Reply.added⟩
  · intro step hstep x n hop hanswer
    obtain ⟨before, op, later, rfl, rfl⟩ := mem_history hstep
    obtain rfl : op = .contribute x := hop
    exact appended_perform (Operation.spec ((tracks_fresh language).after before) _)
      hanswer

/-- Two contributions to one bucket, with two spellings of one place. -/
theorem refines_log_two_spellings :
    let first := Operation.contribute (.paths .opencover (some .unit) [.ofText "/a/b"])
    let second := Operation.contribute (.modulePaths "app" .opencover (some .unit)
      [.ofText "/c", .ofText "/a//b"])
    let before := (fresh none).after [first]
    let c := (fresh none).after [first, second]
    c.snapshot .opencover (some .unit) = [.ofText "/a/b", .ofText "/c"]
      ∧ (second.perform before).result = .added (.ok 1)
      ∧ ∃ appended : List ReportEntry, appended.length = 1 ∧
        c.entries .opencover (some .unit)
          = before.entries .opencover (some .unit) ++ appended := by
  intro first second before c
  obtain ⟨-, hsnapshot, -, -, happended, -⟩ := refines_log none [first, second]
  have hanswer : (second.perform before).result = .added (.ok 1) :=
    congrArg Reply.added (by decide +kernel)
  obtain ⟨appended, hlength, hentries⟩ :=
    happended ⟨second, before, second.perform before⟩ (by simp [history, before]) _ 1 rfl
      hanswer
  refine ⟨(hsnapshot _ _).trans (by decide +kernel), hanswer, appended, hlength, ?_⟩
  exact hentries .opencover (some .unit)

end Collector

end CoverageRegistry
