import CoverageRegistry.Proofs.Collector.Growth
import CoverageRegistry.Proofs.Collector.Sealing

/-!
# The representation of a collector

A collector holds several facts twice: a bucket lists its entries and knows their paths,
every entry repeats the kind and the scope of its bucket, and the phase tells whether
there are buckets. `Bucket.Coherent` and `Collector.WellFormed` say that the two agree.
Entries that name their bucket keep it coherent (`Bucket.Coherent.pushAll`), and the bucket
that is offered something holds something (`Bucket.Coherent.entries_pushAll_ne_nil`), so
every operation keeps a collector well formed (`Collector.WellFormed.perform`). The phase
moves in one direction, whatever the collector holds (`Operation.phase_perform`).
-/

namespace CoverageRegistry

/-! ## The members of a set -/

section Members

variable {α : Type} {cmp : α → α → Ordering} [Std.TransCmp cmp] {s : Std.TreeSet α cmp} {a : α}

theorem contains_iff_exists_toList : s.contains a = true ↔ ∃ b ∈ s.toList, cmp a b = .eq := by
  -- the library speaks of a test of members, here the one that its order gives
  let test : BEq α := ⟨fun a b => cmp a b == .eq⟩
  have : Std.LawfulBEqCmp cmp := ⟨beq_iff_eq.symm⟩
  rw [← Std.TreeSet.contains_toList, List.contains_iff_exists_mem_beq]
  refine exists_congr fun b => and_congr_right fun _ => ?_
  show (cmp a b == .eq) = true ↔ cmp a b = .eq
  exact beq_iff_eq

/-- What a set has no equal of becomes a member as it is, and the others stay. -/
theorem toList_insert_perm (h : ¬ s.contains a = true) :
    (s.insert a).toList.Perm (a :: s.toList) := by
  let test : BEq α := ⟨fun a b => cmp a b == .eq⟩
  have : Std.LawfulBEqCmp cmp := ⟨beq_iff_eq.symm⟩
  have hinsert : (s.insert a).toList.Perm (if a ∈ s then s.toList else a :: s.toList) :=
    Std.TreeSet.toList_insert_perm
  rwa [if_neg (show a ∉ s from h)] at hinsert

end Members

/-! ## Buckets -/

/-- The entry names the kind and the scope of a bucket. -/
def ReportEntry.BelongsTo (entry : ReportEntry) (key : BucketKey) : Prop :=
  entry.kind = key.kind ∧ entry.scope = key.scope

namespace Bucket

/-- The two records of a bucket agree: the known paths are those of the entries, octet by
octet, and the entries name the kind and the scope of the bucket. -/
structure Coherent (b : Bucket) : Prop where
  known : b.seen.toList.Perm (b.entries.map ReportEntry.path)
  tagged : ∀ entry ∈ b.entries, entry.BelongsTo b.key

theorem coherent_empty (key : BucketKey) : (empty key).Coherent where
  known := List.Perm.refl []
  tagged := by intro entry hentry; cases hentry

variable {b : Bucket}

/-- A coherent bucket knows the places of its entries, and no others. -/
theorem Coherent.tracks (h : b.Coherent) : b.Tracks := by
  intro p
  rw [contains_iff_exists_toList]
  constructor
  · rintro ⟨q, hq, hsame⟩
    obtain ⟨entry, hentry, rfl⟩ := List.mem_map.mp (h.known.mem_iff.mp hq)
    exact ⟨entry, hentry, ((Path.compare_eq_eq_iff _ _).mp hsame).symm⟩
  · rintro ⟨entry, hentry, hsame⟩
    exact ⟨entry.path, h.known.mem_iff.mpr (List.mem_map_of_mem hentry),
      (Path.compare_eq_eq_iff _ _).mpr hsame.symm⟩

/-- The entries of a coherent bucket are different places, as the members of a set are. -/
theorem Coherent.distinct (h : b.Coherent) :
    b.entries.Pairwise fun first second => ¬ first.path.SameAs second.path := by
  have hmembers : b.seen.toList.Pairwise fun p q => ¬ p.SameAs q :=
    Std.TreeSet.distinct_toList.imp fun hne hsame =>
      hne ((Path.compare_eq_eq_iff _ _).mpr hsame)
  refine List.pairwise_map.mp ((h.known.pairwise_iff ?_).mp hmembers)
  exact fun hne hsame => hne hsame.symm

theorem Coherent.push (h : b.Coherent) {entry : ReportEntry}
    (htag : entry.BelongsTo b.key) : (b.push entry).1.Coherent := by
  unfold Bucket.push
  split
  · exact h
  · rename_i hnew
    refine ⟨?_, fun other hother => ?_⟩
    · show (b.seen.insert entry.path).toList.Perm ((b.entries ++ [entry]).map ReportEntry.path)
      refine (toList_insert_perm hnew).trans ((h.known.cons _).trans ?_)
      rw [List.map_append, List.map_singleton]
      exact (List.perm_append_singleton _ _).symm
    · rcases List.mem_append.mp hother with hother | hother
      · exact h.tagged other hother
      · rw [List.mem_singleton.mp hother]
        exact htag

theorem Coherent.pushAll {batch : List ReportEntry} :
    ∀ {b : Bucket}, b.Coherent → (∀ entry ∈ batch, entry.BelongsTo b.key) →
      (b.pushAll batch).1.Coherent := by
  induction batch with
  | nil => intro b h _; exact h
  | cons entry rest ih =>
    intro b h htags
    refine ih (h.push (htags entry List.mem_cons_self)) fun other hother => ?_
    rw [push_key]
    exact htags other (List.mem_cons_of_mem _ hother)

/-- A batch that is not empty fills a bucket: a first entry that is known has another one
in the bucket already. -/
theorem Coherent.entries_pushAll_ne_nil (h : b.Coherent) {batch : List ReportEntry}
    (hbatch : batch ≠ []) : (b.pushAll batch).1.entries ≠ [] := by
  obtain ⟨entry, rest, rfl⟩ := List.exists_cons_of_ne_nil hbatch
  obtain ⟨item, hitem, -⟩ : Names ReportEntry.path (b.pushAll (entry :: rest)).1.entries
      entry.path := by
    rw [(h.tracks.pushed (entry :: rest)).entries, names_firstsAfter, names_append, names_cons]
    exact .inr (.inl rfl)
  exact List.ne_nil_of_mem hitem

end Bucket

namespace Collector

/-! ## Collectors -/

/-- The records of a collector agree: its buckets are coherent, each holds something, they
stand under different keys that keep to the scope rule, and an open collector is collecting
when it has one. -/
structure WellFormed (c : Collector) : Prop where
  coherent : ∀ b ∈ c.buckets, b.Coherent
  filled : ∀ b ∈ c.buckets, b.entries ≠ []
  admissible : ∀ b ∈ c.buckets, b.key.Admissible
  keys : (c.buckets.map Bucket.key).Nodup
  phase : c.isSealed = false → (c.phase = .collecting ↔ c.buckets ≠ [])

theorem wellFormed_fresh (language : Option String) : (fresh language).WellFormed := by
  rw [fresh_eq]
  constructor <;> simp

theorem putBucket_ne_nil (key : BucketKey) (b : Bucket) (buckets : List Bucket) :
    putBucket key b buckets ≠ [] := by
  cases buckets with
  | nil => simp [putBucket]
  | cons first rest =>
    rw [putBucket]
    split <;> simp

/-- A bucket that is put in its place keeps the keys, or adds its own behind them. -/
theorem keys_putBucket {key : BucketKey} {b : Bucket} (hb : b.key = key)
    (buckets : List Bucket) :
    (putBucket key b buckets).map Bucket.key
      = if key ∈ buckets.map Bucket.key then buckets.map Bucket.key
        else buckets.map Bucket.key ++ [key] := by
  induction buckets with
  | nil => simp [putBucket, hb]
  | cons first rest ih =>
    by_cases hfirst : first.key = key
    · simp [putBucket, hfirst, hb]
    · rw [putBucket, if_neg hfirst, List.map_cons, ih]
      simp only [List.map_cons, List.mem_cons, Ne.symm hfirst, false_or]
      split <;> rfl

variable {c : Collector}

theorem WellFormed.bucket (h : c.WellFormed) (key : BucketKey) : (c.bucket key).Coherent := by
  unfold Collector.bucket
  cases hfind : c.buckets.find? fun b => b.key = key with
  | none => exact Bucket.coherent_empty key
  | some b => exact h.coherent b (List.mem_of_find?_eq_some hfind)

/-- A batch that is not empty keeps a collector well formed: the bucket of the key is
replaced or put at the end, and the others are as they were. -/
theorem WellFormed.stored (h : c.WellFormed) {key : BucketKey} (hkey : key.Admissible)
    {batch : List ReportEntry} (hbatch : batch ≠ [])
    (htags : ∀ entry ∈ batch, entry.BelongsTo key) : (c.stored key batch).WellFormed := by
  have hput : ((c.bucket key).pushAll batch).1.key = key := by
    rw [Bucket.pushAll_key, bucket_key]
  have hcoherent : ((c.bucket key).pushAll batch).1.Coherent :=
    (h.bucket key).pushAll (by rwa [bucket_key])
  have hfilled : ((c.bucket key).pushAll batch).1.entries ≠ [] :=
    (h.bucket key).entries_pushAll_ne_nil hbatch
  refine ⟨fun b hb => ?_, fun b hb => ?_, fun b hb => ?_, ?_, fun _ => ?_⟩
  · rcases mem_putBucket hb with rfl | hb
    · exact hcoherent
    · exact h.coherent b hb
  · rcases mem_putBucket hb with rfl | hb
    · exact hfilled
    · exact h.filled b hb
  · rcases mem_putBucket hb with rfl | hb
    · rwa [hput]
    · exact h.admissible b hb
  · rw [Collector.stored, keys_putBucket hput]
    split
    · exact h.keys
    · rename_i hnew
      exact List.concat_eq_append ▸ h.keys.concat hnew
  · exact ⟨fun _ => putBucket_ne_nil _ _ _, fun _ => rfl⟩

theorem WellFormed.closed (h : c.WellFormed) : c.closed.WellFormed :=
  { h with phase := fun hopen => by cases hopen }

/-- Every operation keeps a collector well formed. -/
theorem WellFormed.perform (h : c.WellFormed) (op : Operation) :
    (op.perform c).collector.WellFormed := by
  rcases op.collector_cases c with hc | hc | ⟨x, -, -, hadmissible, hentries, hc⟩ <;> rw [hc]
  · exact h
  · exact h.closed
  · refine h.stored hadmissible hentries fun entry hentry => ?_
    obtain ⟨item, -, rfl⟩ := List.mem_map.mp hentry
    exact ⟨rfl, rfl⟩

theorem WellFormed.after (h : c.WellFormed) (ops : List Operation) :
    (c.after ops).WellFormed :=
  after_induction (P := WellFormed) WellFormed.perform h ops

/-- A well-formed collector holds paths when it has buckets, as none of them is empty. -/
theorem WellFormed.totalPaths_pos_iff (h : c.WellFormed) :
    0 < c.totalPaths ↔ c.buckets ≠ [] := by
  rw [totalPaths, allEntries, List.length_pos_iff]
  constructor
  · rintro hentries hnone
    exact hentries (by rw [hnone, List.flatMap_nil])
  · intro hbuckets hnone
    obtain ⟨b, hb⟩ := List.exists_mem_of_ne_nil _ hbuckets
    exact h.filled b hb (List.flatMap_eq_nil_iff.mp hnone b hb)

theorem WellFormed.buckets_of_init (h : c.WellFormed) (hinit : c.phase = .init) :
    c.buckets = [] := by
  have hopen : c.isSealed = false := by simp [isSealed, hinit]
  by_contra hbuckets
  have hphase := (h.phase hopen).mpr hbuckets
  rw [hinit] at hphase
  cases hphase

theorem WellFormed.collecting_iff (h : c.WellFormed) :
    c.phase = .collecting ↔ c.isSealed = false ∧ 0 < c.totalPaths := by
  rw [h.totalPaths_pos_iff]
  constructor
  · intro hphase
    have hopen : c.isSealed = false := by simp [isSealed, hphase]
    exact ⟨hopen, (h.phase hopen).mp hphase⟩
  · rintro ⟨hopen, hbuckets⟩
    exact (h.phase hopen).mpr hbuckets

end Collector

/-! ## The phases of a run -/

/-- The moves from one stage of a collector's life to another. -/
inductive Phase.Moves : Phase → Phase → Prop where
  | collect : Moves .init .collecting
  | close : Moves .collecting .sealed
  | closeUnused : Moves .init .sealed

/-- An operation leaves the phase as it is or makes one of the moves, whatever the
collector holds. -/
theorem Operation.phase_perform (c : Collector) (op : Operation) :
    (op.perform c).collector.phase = c.phase
      ∨ c.phase.Moves (op.perform c).collector.phase := by
  rcases op.collector_cases c with hc | hc | ⟨x, -, hopen, -, -, hc⟩ <;> rw [hc]
  · exact .inl rfl
  · show Phase.sealed = c.phase ∨ c.phase.Moves .sealed
    cases c.phase with
    | init => exact .inr .closeUnused
    | collecting => exact .inr .close
    | sealed => exact .inl rfl
  · show Phase.collecting = c.phase ∨ c.phase.Moves .collecting
    cases hphase : c.phase with
    | init => exact .inr .collect
    | collecting => exact .inl rfl
    | sealed => simp [Collector.isSealed, hphase] at hopen

namespace Collector

/-- The phases that a run goes through: the one it starts with, and the one that each step
leaves. -/
def phases (c : Collector) (ops : List Operation) : List Phase :=
  c.phase :: (c.history ops).map fun step => step.answer.collector.phase

/-- A run is fresh for a while, then collects for a while, and is sealed from then on.
Each of the three may be missing, but the first only where the run starts later. -/
theorem exists_phases_eq (c : Collector) (ops : List Operation) :
    ∃ unused collecting closed : Nat, (c.phase = .init → 0 < unused)
      ∧ c.phases ops
        = List.replicate unused Phase.init ++ List.replicate collecting Phase.collecting
          ++ List.replicate closed Phase.sealed := by
  induction ops generalizing c with
  | nil =>
    cases hphase : c.phase with
    | init => exact ⟨1, 0, 0, by simp, by simp [phases, history, hphase]⟩
    | collecting => exact ⟨0, 1, 0, by simp, by simp [phases, history, hphase]⟩
    | sealed => exact ⟨0, 0, 1, by simp, by simp [phases, history, hphase]⟩
  | cons op ops ih =>
    obtain ⟨i, j, k, -, hrest⟩ := ih (op.perform c).collector
    have hrun : c.phases (op :: ops) = c.phase :: (op.perform c).collector.phases ops := rfl
    -- the rest begins with the phase that the step leaves, and no move leads back
    have hmove : ∀ {phase later}, (op.perform c).collector.phases ops = phase :: later →
        phase = c.phase ∨ c.phase.Moves phase := by
      intro phase later heq
      rw [← (List.cons.inj heq).1]
      exact op.phase_perform c
    rw [hrun, hrest]
    generalize c.phase = phase at hmove ⊢
    cases phase with
    | init => exact ⟨i + 1, j, k, fun _ => i.succ_pos, rfl⟩
    | collecting =>
      cases i with
      | zero => exact ⟨0, j + 1, k, by simp, rfl⟩
      | succ i => rcases hmove hrest with h | h <;> cases h
    | sealed =>
      cases i with
      | succ i => rcases hmove hrest with h | h <;> cases h
      | zero =>
        cases j with
        | zero => exact ⟨0, 0, k + 1, by simp, rfl⟩
        | succ j => rcases hmove hrest with h | h <;> cases h

/-- **The representation of a collector.** After every run of a fresh collector, a bucket
knows the paths of its entries and no others, octet by octet and place by place; its
entries are different places, there is at least one, and all of them name the kind and the
scope of the bucket. The buckets stand under different keys, and a key has a scope exactly
when its kind is a coverage kind. The collector is bound to the language it started with, or
to none. It has no bucket while nothing was contributed, and it is collecting exactly when
it is open and holds a path. No step changes the phase but by one of the moves, so the run
is fresh for a while, then collects for a while, and is sealed from then on. -/
theorem representation_invariant (language : Option String) (ops : List Operation) :
    let c := (fresh language).after ops
    (∀ b ∈ c.buckets,
        b.seen.toList.Perm (b.entries.map ReportEntry.path)
          ∧ (∀ p, b.seen.contains p = true ↔ ∃ entry ∈ b.entries, entry.path.SameAs p)
          ∧ b.entries.Pairwise (fun first second => ¬ first.path.SameAs second.path)
          ∧ b.entries ≠ []
          ∧ (∀ entry ∈ b.entries, entry.kind = b.key.kind ∧ entry.scope = b.key.scope)
          ∧ (b.key.scope.isSome = true ↔ b.key.kind.isCoverage = true))
      ∧ (c.buckets.map Bucket.key).Nodup
      ∧ c.language = language
      ∧ (c.phase = .init → c.buckets = [])
      ∧ (c.phase = .collecting ↔ c.isSealed = false ∧ 0 < c.totalPaths)
      ∧ (∀ step ∈ (fresh language).history ops,
        step.answer.collector.phase = step.before.phase
          ∨ step.before.phase.Moves step.answer.collector.phase)
      ∧ ∃ unused collecting closed : Nat, 0 < unused ∧ (fresh language).phases ops
        = List.replicate unused Phase.init ++ List.replicate collecting Phase.collecting
          ++ List.replicate closed Phase.sealed := by
  intro c
  have h : c.WellFormed := (wellFormed_fresh language).after ops
  obtain ⟨unused, collecting, closed, hfirst, hphases⟩ := exists_phases_eq (fresh language) ops
  refine ⟨fun b hb => ?_, h.keys, ?_, h.buckets_of_init, h.collecting_iff, ?_,
    unused, collecting, closed, hfirst ?_, hphases⟩
  · have hcoherent := h.coherent b hb
    refine ⟨hcoherent.known, hcoherent.tracks, hcoherent.distinct, h.filled b hb,
      hcoherent.tagged, ?_⟩
    rw [show b.key.scope.isSome = b.key.kind.isCoverage from h.admissible b hb]
  · rw [show c.language = (fresh language).language from language_after _ ops, fresh_eq]
  · intro step hstep
    obtain ⟨before, op, later, -, rfl⟩ := mem_history hstep
    exact op.phase_perform _
  · rw [fresh_eq]

/-- An empty contribution leaves a fresh collector fresh; one with two spellings of a place
puts one of them in the bucket, which knows the other one too; and a read closes it. -/
theorem representation_invariant_two_spellings :
    let add := fun paths : List Path => Operation.contribute
      (.modulePaths "app" .opencover (some .unit) paths)
    let ops := [add [], add [.ofText "/a/b", .ofText "/a//b"], .analyzerReports]
    let c := (fresh (some "cs")).after ops
    ∃ b ∈ c.buckets, b.entries = [⟨.ofText "/a/b", some "app", .opencover, some .unit⟩]
      ∧ b.seen.toList.Perm [.ofText "/a/b"] ∧ b.seen.contains (.ofText "/a//b") = true
      ∧ c.language = some "cs" ∧ c.isSealed = true ∧ c.phase ≠ .collecting := by
  intro add ops c
  obtain ⟨hbuckets, -, hlanguage, -, hcollecting, -⟩ := representation_invariant (some "cs") ops
  have hfound : (c.buckets.find? fun b => b.key = .coverage .opencover .unit).map Bucket.entries
      = some [⟨.ofText "/a/b", some "app", .opencover, some .unit⟩] := by decide +kernel
  obtain ⟨b, hfind, hentries⟩ := Option.map_eq_some_iff.mp hfound
  have hb : b ∈ c.buckets := List.mem_of_find?_eq_some hfind
  have hsealed : c.isSealed = true := by decide +kernel
  obtain ⟨hknown, hplaces, -⟩ := hbuckets b hb
  rw [hentries] at hknown hplaces
  refine ⟨b, hb, hentries, hknown, (hplaces _).mpr ?_, hlanguage, hsealed, fun hphase => ?_⟩
  · exact ⟨_, List.mem_singleton_self _, by decide +kernel⟩
  · rw [(hcollecting.mp hphase).1] at hsealed
    cases hsealed

end Collector

end CoverageRegistry
