import CoverageRegistry.Proofs.Collector.Bucket

/-!
# Offering entries to a collector

Every contribution ends in `Collector.offer`, so what a contribution does is said
once, here: a sealed collector answers an error and stays as it is
(`offer_of_isSealed`), and an open one accepts (`accepted_offer`). `Accepted` names
all that acceptance means for the buckets, the total and the phase.
-/

namespace CoverageRegistry.Collector

/-! ## Putting a bucket in its place -/

theorem bucket_key (c : Collector) (key : BucketKey) : (c.bucket key).key = key := by
  unfold Collector.bucket
  cases hfind : c.buckets.find? fun b => b.key = key with
  | none => rfl
  | some b => simpa using List.find?_some hfind

theorem find?_putBucket {key : BucketKey} {b : Bucket} (hb : b.key = key)
    (other : BucketKey) (buckets : List Bucket) :
    (putBucket key b buckets).find? (fun b => b.key = other)
      = if other = key then some b else buckets.find? fun b => b.key = other := by
  induction buckets with
  | nil =>
    by_cases ho : other = key
    · simp [putBucket, hb, ho]
    · simp [putBucket, hb, ho, Ne.symm ho]
  | cons first rest ih =>
    by_cases hfirst : first.key = key
    · by_cases ho : other = key
      · simp [putBucket, hfirst, hb, ho]
      · simp [putBucket, hfirst, hb, ho, Ne.symm ho]
    · rw [putBucket, if_neg hfirst, List.find?_cons, List.find?_cons, ih]
      by_cases ho : other = key
      · subst ho
        simp [hfirst]
      · rw [if_neg ho, if_neg ho]

theorem mem_putBucket {key : BucketKey} {b other : Bucket} {buckets : List Bucket}
    (h : other ∈ putBucket key b buckets) : other = b ∨ other ∈ buckets := by
  induction buckets with
  | nil => exact .inl (List.mem_singleton.mp h)
  | cons first rest ih =>
    rw [putBucket] at h
    split at h
    · rcases List.mem_cons.mp h with rfl | h
      · exact .inl rfl
      · exact .inr (List.mem_cons_of_mem _ h)
    · rcases List.mem_cons.mp h with rfl | h
      · exact .inr List.mem_cons_self
      · exact (ih h).imp_right (List.mem_cons_of_mem _)

/-- A bucket with more entries lengthens all entries by as many. -/
theorem length_putBucket {key : BucketKey} {b : Bucket} {n : Nat} (buckets : List Bucket)
    (h : b.entries.length
      = ((buckets.find? fun b => b.key = key).getD (.empty key)).entries.length + n) :
    ((putBucket key b buckets).flatMap Bucket.entries).length
      = (buckets.flatMap Bucket.entries).length + n := by
  induction buckets with
  | nil => simpa [putBucket, Bucket.empty] using h
  | cons first rest ih =>
    by_cases hfirst : first.key = key
    · simp only [List.find?_cons, hfirst, decide_true, Option.getD_some] at h
      simp only [putBucket, hfirst, if_true, List.flatMap_cons, List.length_append, h]
      omega
    · simp only [List.find?_cons, hfirst, decide_false] at h
      simp only [putBucket, hfirst, if_false, List.flatMap_cons, List.length_append,
        ih h]
      omega

/-! ## Collectors whose buckets know their paths -/

/-- Every bucket knows the paths of its entries. -/
def Tracks (c : Collector) : Prop :=
  ∀ b ∈ c.buckets, b.Tracks

theorem Tracks.bucket {c : Collector} (h : c.Tracks) (key : BucketKey) :
    (c.bucket key).Tracks := by
  unfold Collector.bucket
  cases hfind : c.buckets.find? fun b => b.key = key with
  | none => exact Bucket.tracks_empty key
  | some b => exact h b (List.mem_of_find?_eq_some hfind)

/-- The entries of a batch that a bucket keeps: the first for each place that no
entry of the bucket names. -/
def kept (c : Collector) (key : BucketKey) (batch : List ReportEntry) :
    List ReportEntry :=
  firstsAfter ReportEntry.path (c.bucket key).entries batch

/-- All that the acceptance of a batch does: the bucket gets what it keeps, every
other bucket stays, and the collector stays open. -/
structure Accepted (c : Collector) (key : BucketKey) (batch : List ReportEntry)
    (answer : Answer (Except RegistryError Nat)) : Prop where
  result : answer.result = .ok (c.kept key batch).length
  entries : ∀ other, (answer.collector.bucket other).entries
    = (c.bucket other).entries ++ if other = key then c.kept key batch else []
  total : answer.collector.totalPaths = c.totalPaths + (c.kept key batch).length
  language : answer.collector.language = c.language
  isOpen : answer.collector.isSealed = false
  tracks : answer.collector.Tracks

theorem offer_of_isSealed {c : Collector} (h : c.isSealed = true) (key : BucketKey)
    (batch : List ReportEntry) :
    (c.offer key batch).result = .error (.registrySealed key.kind key.scope)
      ∧ (c.offer key batch).collector = c := by
  simp [offer, h]

/-- The collector with a batch put into a bucket. -/
def stored (c : Collector) (key : BucketKey) (batch : List ReportEntry) : Collector :=
  { c with
    phase := .collecting
    buckets := putBucket key ((c.bucket key).pushAll batch).1 c.buckets }

/-- An offer leaves a collector as it is, unless it is open and the batch is not empty. -/
theorem offer_cases (c : Collector) (key : BucketKey) (batch : List ReportEntry) :
    (c.offer key batch).collector = c
      ∨ (c.isSealed = false ∧ batch ≠ []
        ∧ (c.offer key batch).collector = c.stored key batch) := by
  rw [offer]
  split
  · exact .inl rfl
  split
  · exact .inl rfl
  · rename_i hopen hbatch
    exact .inr ⟨by simpa using hopen, by simpa using hbatch, rfl⟩

/-- An open collector that is offered something is collecting. -/
theorem phase_offer {c : Collector} (hopen : c.isSealed = false) (key : BucketKey)
    (batch : List ReportEntry) :
    (c.offer key batch).collector.phase = if batch.isEmpty then c.phase else .collecting := by
  rw [offer, if_neg (by simp [hopen])]
  split <;> rfl

/-- An open collector accepts every batch. -/
theorem accepted_offer {c : Collector} (hopen : c.isSealed = false) (htracks : c.Tracks)
    (key : BucketKey) (batch : List ReportEntry) :
    c.Accepted key batch (c.offer key batch) := by
  have hnot : ¬ c.isSealed = true := by simp [hopen]
  cases batch with
  | nil =>
    have hkept : c.kept key [] = [] := rfl
    rw [offer, if_neg hnot, List.isEmpty_nil, if_pos rfl]
    exact ⟨rfl, by simp [hkept], by simp [hkept], rfl, hopen, htracks⟩
  | cons entry rest =>
    have hpushed := (htracks.bucket key).pushed (entry :: rest)
    have hkey : ((c.bucket key).pushAll (entry :: rest)).1.key = key := by
      rw [Bucket.pushAll_key, bucket_key]
    rw [offer, if_neg hnot, List.isEmpty_cons, if_neg (by decide)]
    refine ⟨congrArg Except.ok hpushed.count, fun other => ?_, ?_, rfl,
      by simp [isSealed], fun b hb => ?_⟩
    · show (((putBucket key _ c.buckets).find? fun b => b.key = other).getD _).entries = _
      rw [find?_putBucket hkey]
      by_cases ho : other = key
      · subst ho
        rw [if_pos rfl, if_pos rfl]
        exact hpushed.entries
      · rw [if_neg ho, if_neg ho, List.append_nil]
        rfl
    · refine length_putBucket c.buckets ?_
      rw [hpushed.entries, List.length_append]
      rfl
    · rcases mem_putBucket hb with rfl | hb
      · exact hpushed.tracks
      · exact htracks b hb

end CoverageRegistry.Collector
