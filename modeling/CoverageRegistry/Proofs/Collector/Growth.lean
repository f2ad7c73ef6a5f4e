import CoverageRegistry.Proofs.Collector.Open

/-!
# Growth of a collector

What contributions can do to an open collector, whatever it holds: entries are put at the
end of the buckets that are named, and the total grows by what is answered (`Grown`). This
needs no invariant. A bucket may take paths for known that none of its entries has, or hold
a place twice, and is appended to all the same (`Bucket.pushAll_grows`).
-/

namespace CoverageRegistry

/-- A batch is appended to a bucket, perhaps in part, and the answer tells how much of it. -/
theorem Bucket.pushAll_grows (batch : List ReportEntry) :
    ∀ b : Bucket, ∃ added, (b.pushAll batch).1.entries = b.entries ++ added
      ∧ (b.pushAll batch).2 = added.length := by
  induction batch with
  | nil => intro b; exact ⟨[], (List.append_nil _).symm, rfl⟩
  | cons entry rest ih =>
    intro b
    obtain ⟨added, hentries, hcount⟩ := ih (b.push entry).1
    rw [pushAll, hentries, hcount, push]
    split
    · exact ⟨added, rfl, Nat.zero_add _⟩
    · refine ⟨entry :: added, ?_, ?_⟩
      · exact List.append_assoc b.entries [entry] added
      · exact Nat.add_comm 1 added.length

namespace Collector

/-- A collector has grown: some of its buckets were appended to, the others are as they
were, and so are its language and whether it is sealed. -/
structure Grown (keys : List BucketKey) (count : Nat) (before after : Collector) : Prop where
  appended : ∀ key, (before.bucket key).entries <+: (after.bucket key).entries
  elsewhere : ∀ key, key ∉ keys → after.bucket key = before.bucket key
  total : after.totalPaths = before.totalPaths + count
  language : after.language = before.language
  isSealed : after.isSealed = before.isSealed

variable {keys : List BucketKey} {c : Collector}

theorem Grown.refl (keys : List BucketKey) (c : Collector) : Grown keys 0 c c :=
  ⟨fun _ => List.prefix_rfl, fun _ _ => rfl, rfl, rfl, rfl⟩

theorem Grown.trans {m n : Nat} {before middle after : Collector}
    (h : Grown keys m before middle) (g : Grown keys n middle after) :
    Grown keys (m + n) before after where
  appended key := (h.appended key).trans (g.appended key)
  elsewhere key hkey := (g.elsewhere key hkey).trans (h.elsewhere key hkey)
  total := by rw [g.total, h.total, Nat.add_assoc]
  language := g.language.trans h.language
  isSealed := g.isSealed.trans h.isSealed

/-- A bucket that is put in its place is found there, and the others where they were. -/
theorem bucket_putBucket (c : Collector) (phase : Phase) {key : BucketKey} {b : Bucket}
    (hb : b.key = key) (other : BucketKey) :
    Collector.bucket { c with phase := phase, buckets := putBucket key b c.buckets } other
      = if other = key then b else c.bucket other := by
  rw [Collector.bucket, find?_putBucket hb]
  split <;> rfl

/-- An open collector accepts every batch and grows in the one bucket. -/
theorem grown_offer (hopen : c.isSealed = false) {key : BucketKey} (hkey : key ∈ keys)
    (batch : List ReportEntry) :
    ∃ n, (c.offer key batch).result = .ok n ∧ Grown keys n c (c.offer key batch).collector := by
  rw [offer, if_neg (by simp [hopen])]
  split
  · exact ⟨0, rfl, .refl keys c⟩
  · obtain ⟨added, hentries, hcount⟩ := (c.bucket key).pushAll_grows batch
    have hput : ((c.bucket key).pushAll batch).1.key = key := by
      rw [Bucket.pushAll_key, bucket_key]
    refine ⟨_, rfl, ?_, ?_, ?_, rfl, hopen.symm⟩
    · intro other
      rw [bucket_putBucket c .collecting hput]
      split
      · rename_i hother
        rw [hentries, hother]
        exact List.prefix_append _ _
      · exact List.prefix_rfl
    · intro other hother
      have hne : other ≠ key := fun heq => hother (heq ▸ hkey)
      rw [bucket_putBucket c .collecting hput, if_neg hne]
    · refine length_putBucket c.buckets ?_
      rw [hentries, hcount, List.length_append]
      rfl

/-- An open collector accepts contributions to some buckets and grows in these. -/
theorem grown_contributeAll {xs : List Contribution} :
    ∀ {c : Collector}, c.isSealed = false → (∀ x ∈ xs, x.target.Admissible ∧ x.target ∈ keys) →
      ∃ n, (c.contributeAll xs).1 = .ok n ∧ Grown keys n c (c.contributeAll xs).2 := by
  induction xs with
  | nil => intro c _ _; exact ⟨0, rfl, .refl keys c⟩
  | cons x xs ih =>
    intro c hopen hxs
    obtain ⟨hadmissible, htarget⟩ := hxs x List.mem_cons_self
    obtain ⟨m, hresult, hfirst⟩ := grown_offer hopen htarget x.entries
    have hadd : x.add c = c.offer x.target x.entries := by rw [x.add_eq, if_pos hadmissible]
    rw [← hadd] at hresult hfirst
    -- it is still open, so the other contributions are accepted too
    obtain ⟨n, hrest, hothers⟩ := ih (hfirst.isSealed.trans hopen)
      fun y hy => hxs y (List.mem_cons_of_mem _ hy)
    refine ⟨m + n, ?_, ?_⟩
    · simp only [contributeAll, hresult, hrest, Except.map]
    · simp only [contributeAll, hresult]
      exact hfirst.trans hothers

end Collector

end CoverageRegistry
