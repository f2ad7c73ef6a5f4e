import CoverageRegistry.Proofs.Collector.Log

/-!
# Contributions to an open collector

An open collector stays open under contributions, whatever they are: one that names
no bucket is refused and changes nothing, every other one is accepted. So a list of
contributions is described bucket by bucket: `Ready.entries_contributed` says what
it appends to a bucket, `Ready.phase_contributed` when it starts the collecting, and
`Ready.total_contributed` that the total grows by the answers.
-/

namespace CoverageRegistry

namespace Contribution

/-- The items that a contribution offers to a bucket. -/
def offers (key : BucketKey) (x : Contribution) : List Item :=
  if x.target = key then x.items else []

/-- A contribution that brings something to a bucket. -/
def Fills (x : Contribution) : Prop :=
  x.target.Admissible ∧ x.items ≠ []

instance (x : Contribution) : Decidable x.Fills :=
  inferInstanceAs (Decidable (_ ∧ _))

/-- A contribution that names a module for every report file of an analyzer. -/
def Tagged (x : Contribution) : Prop :=
  x.target = .roslyn → ∀ item ∈ x.items, item.module.isSome = true

theorem offers_of_ne {key : BucketKey} {x : Contribution} (h : x.target ≠ key) :
    x.offers key = [] :=
  if_neg h

end Contribution

namespace Collector

/-! ## One contribution -/

/-- An open collector whose buckets know their paths. -/
structure Ready (c : Collector) : Prop where
  isOpen : c.isSealed = false
  tracks : c.Tracks

theorem ready_fresh (language : Option String) : (fresh language).Ready :=
  ⟨by rw [fresh_eq]; rfl, tracks_fresh language⟩

theorem ready_forLanguage (language : String) : (forLanguage language).Ready :=
  ready_fresh (some language)

variable {c : Collector}

theorem Ready.accepted (h : c.Ready) {x : Contribution} (hx : x.target.Admissible) :
    c.Accepted x.target x.entries (x.add c) :=
  x.accepted_add h.isOpen h.tracks hx

theorem Ready.add (h : c.Ready) (x : Contribution) : (x.add c).collector.Ready := by
  by_cases hx : x.target.Admissible
  · exact ⟨(h.accepted hx).isOpen, (h.accepted hx).tracks⟩
  · rw [Contribution.add_of_not_admissible hx]
    exact h

theorem Ready.phase_add (h : c.Ready) (x : Contribution) :
    (x.add c).collector.phase = if x.Fills then .collecting else c.phase := by
  by_cases hx : x.target.Admissible
  · rw [x.add_eq, if_pos hx, phase_offer h.isOpen]
    by_cases hitems : x.items = []
    · have hentries : x.entries = [] := by rw [Contribution.entries, hitems, List.map_nil]
      rw [hentries, List.isEmpty_nil, if_pos rfl, if_neg fun hfills => hfills.2 hitems]
    · have hentries : x.entries.isEmpty = false := by
        simp [Contribution.entries, hitems]
      rw [hentries, if_neg (by decide), if_pos ⟨hx, hitems⟩]
  · rw [Contribution.add_of_not_admissible hx, if_neg fun hfills => hx hfills.1]

/-- What a contribution adds to a bucket: of the items it offers, the first for each
new place. -/
theorem Ready.entries_add (h : c.Ready) {key : BucketKey} (hkey : key.Admissible)
    (x : Contribution) :
    ((x.add c).collector.bucket key).entries
      = (c.bucket key).entries ++ c.kept key ((x.offers key).map (Item.entry key)) := by
  by_cases htarget : x.target = key
  · subst htarget
    rw [(h.accepted hkey).entries, if_pos rfl, Contribution.offers, if_pos rfl]
    rfl
  · rw [Contribution.offers_of_ne htarget]
    by_cases hx : x.target.Admissible
    · rw [(h.accepted hx).entries, if_neg (Ne.symm htarget)]
      rfl
    · rw [Contribution.add_of_not_admissible hx]
      exact (List.append_nil _).symm

/-- An empty contribution leaves an open collector as it is. -/
theorem Ready.add_of_items_eq_nil (h : c.Ready) {x : Contribution}
    (hx : x.target.Admissible) (hitems : x.items = []) :
    (x.add c).collector = c := by
  have hentries : x.entries = [] := by rw [Contribution.entries, hitems, List.map_nil]
  rw [x.add_eq, if_pos hx, hentries, offer, if_neg (by simp [h.isOpen]),
    List.isEmpty_nil, if_pos rfl]

/-- How many new paths an answer to a contribution tells. -/
def counted : Except RegistryError Nat → Nat
  | .ok n => n
  | .error _ => 0

theorem Ready.total_add (h : c.Ready) (x : Contribution) :
    (x.add c).collector.totalPaths = c.totalPaths + counted (x.add c).result := by
  by_cases hx : x.target.Admissible
  · rw [(h.accepted hx).total, (h.accepted hx).result, counted]
  · rw [Contribution.add_of_not_admissible hx, counted, Nat.add_zero]

/-! ## Lists of contributions -/

/-- The collector after a list of contributions. -/
def contributed (c : Collector) (xs : List Contribution) : Collector :=
  c.after (xs.map .contribute)

@[simp] theorem contributed_nil (c : Collector) : c.contributed [] = c := rfl

@[simp] theorem contributed_cons (c : Collector) (x : Contribution)
    (xs : List Contribution) :
    c.contributed (x :: xs) = (x.add c).collector.contributed xs := rfl

theorem contributed_append (c : Collector) (xs ys : List Contribution) :
    c.contributed (xs ++ ys) = (c.contributed xs).contributed ys := by
  rw [contributed, List.map_append, after_append]
  rfl

theorem Ready.contributed {c : Collector} (h : c.Ready) (xs : List Contribution) :
    (c.contributed xs).Ready := by
  induction xs generalizing c with
  | nil => exact h
  | cons x xs ih => exact ih (h.add x)

theorem Ready.phase_contributed {c : Collector} (h : c.Ready)
    (xs : List Contribution) :
    (c.contributed xs).phase
      = if ∃ x ∈ xs, x.Fills then .collecting else c.phase := by
  induction xs generalizing c with
  | nil => simp
  | cons x xs ih =>
    rw [contributed_cons, ih (h.add x), h.phase_add]
    simp only [List.exists_mem_cons_iff]
    by_cases hrest : ∃ x ∈ xs, x.Fills
    · rw [if_pos hrest, if_pos (.inr hrest)]
    · rw [if_neg hrest]
      simp only [hrest, or_false]

/-- A list of contributions adds to a bucket, of all items it offers, the first for
each new place. -/
theorem Ready.entries_contributed {key : BucketKey} (hkey : key.Admissible)
    {c : Collector} (h : c.Ready) (xs : List Contribution) :
    ((c.contributed xs).bucket key).entries
      = (c.bucket key).entries
        ++ c.kept key ((xs.flatMap (Contribution.offers key)).map (Item.entry key)) := by
  induction xs generalizing c with
  | nil => simp [kept, firstsAfter]
  | cons x xs ih =>
    rw [contributed_cons, ih (h.add x), kept, h.entries_add hkey, List.flatMap_cons,
      List.map_append, kept, kept, firstsAfter_append, List.append_assoc]
    -- in front of the later items stand the same places, kept or not
    exact congrArg _ (congrArg _ (firstsAfter_congr _ fun _ => names_firstsAfter _))

/-- The entries after contributions to a fresh collector: the offered items, the first
for each place. -/
theorem entries_contributed_fresh (language : Option String) (xs : List Contribution)
    (kind : ReportKind) (scope : Option TestScope) :
    ((fresh language).contributed xs).entries kind scope
      = if (BucketKey.mk kind scope).Admissible then
          (firsts Item.path (xs.flatMap (Contribution.offers ⟨kind, scope⟩))).map
            (Item.entry ⟨kind, scope⟩)
        else [] := by
  rw [entries_eq]
  by_cases hkey : (BucketKey.mk kind scope).Admissible
  · rw [if_pos hkey, if_pos hkey, (ready_fresh language).entries_contributed hkey, kept,
      bucket_fresh, List.nil_append]
    exact (map_firsts ReportEntry.path (Item.entry ⟨kind, scope⟩) _).symm
  · rw [if_neg hkey, if_neg hkey]

/-! ## The answers to a list of contributions -/

/-- A contribution of some contributor, who is told apart by a label. -/
abbrev Call (ι : Type) := ι × Contribution

/-- The calls of a list, made in order, each with its answer. -/
def answers {ι : Type} (c : Collector) :
    List (Call ι) → List (Call ι × Except RegistryError Nat)
  | [] => []
  | call :: calls =>
    (call, (call.2.add c).result) :: (call.2.add c).collector.answers calls

variable {ι : Type}

/-- The total grows by the answers. -/
theorem Ready.total_contributed {c : Collector} (h : c.Ready) (calls : List (Call ι)) :
    (c.contributed (calls.map Prod.snd)).totalPaths
      = c.totalPaths + ((c.answers calls).map fun answer => counted answer.2).sum := by
  induction calls generalizing c with
  | nil => rfl
  | cons call calls ih =>
    rw [List.map_cons, contributed_cons, ih (h.add call.2), h.total_add, answers,
      List.map_cons, List.sum_cons, Nat.add_assoc]

/-- An open collector accepts the calls that name a bucket, and no others. -/
theorem Ready.isOk_answers {c : Collector} (h : c.Ready) (calls : List (Call ι)) :
    (c.answers calls).map (fun answer => (answer.1, answer.2.isOk))
      = calls.map fun call => (call, decide call.2.target.Admissible) := by
  induction calls generalizing c with
  | nil => rfl
  | cons call calls ih =>
    have hfirst : (call.2.add c).result.isOk = decide call.2.target.Admissible := by
      by_cases hx : call.2.target.Admissible
      · rw [(h.accepted hx).result, decide_eq_true hx]
        rfl
      · rw [Contribution.add_of_not_admissible hx, decide_eq_false hx]
        rfl
    rw [answers, List.map_cons, List.map_cons, ih (h.add call.2), hfirst]

/-! ## Contributing until a refusal -/

/-- Makes contributions in order, until one is refused; answers how many paths were
new. -/
def contributeAll (c : Collector) :
    List Contribution → Except RegistryError Nat × Collector
  | [] => (.ok 0, c)
  | x :: xs =>
    match (x.add c).result with
    | .error error => (.error error, (x.add c).collector)
    | .ok n =>
      let others := (x.add c).collector.contributeAll xs
      (others.1.map (n + ·), others.2)

theorem contributeAll_singleton (c : Collector) (x : Contribution) :
    c.contributeAll [x] = ((x.add c).result, (x.add c).collector) := by
  rw [contributeAll]
  cases (x.add c).result with
  | error error => rfl
  | ok n => rfl

theorem contributeAll_append (xs ys : List Contribution) (c : Collector) :
    c.contributeAll (xs ++ ys)
      = match (c.contributeAll xs).1 with
        | .error error => (.error error, (c.contributeAll xs).2)
        | .ok n =>
          (((c.contributeAll xs).2.contributeAll ys).1.map (n + ·),
            ((c.contributeAll xs).2.contributeAll ys).2) := by
  induction xs generalizing c with
  | nil =>
    show c.contributeAll ys
      = ((c.contributeAll ys).1.map (0 + ·), (c.contributeAll ys).2)
    rcases c.contributeAll ys with ⟨error | n, collector⟩
    · rfl
    · simp [Except.map]
  | cons x xs ih =>
    rw [List.cons_append, contributeAll, contributeAll]
    cases (x.add c).result with
    | error error => rfl
    | ok n =>
      simp only [ih]
      cases ((x.add c).collector.contributeAll xs).1 with
      | error error => rfl
      | ok m =>
        simp only [Except.map]
        cases (((x.add c).collector.contributeAll xs).2.contributeAll ys).1 with
        | error error => rfl
        | ok k => simp only [Nat.add_assoc]

/-- An open collector takes them all. -/
theorem Ready.contributeAll_eq {xs : List Contribution} :
    ∀ {c : Collector}, c.Ready → (∀ x ∈ xs, x.target.Admissible) →
      ∃ n, c.contributeAll xs = (.ok n, c.contributed xs)
        ∧ (c.contributed xs).totalPaths = c.totalPaths + n := by
  induction xs with
  | nil => intro c _ _; exact ⟨0, rfl, rfl⟩
  | cons x xs ih =>
    intro c h hxs
    have hfirst := h.accepted (hxs x List.mem_cons_self)
    obtain ⟨n, hrest, htotal⟩ :=
      ih (h.add x) fun y hy => hxs y (List.mem_cons_of_mem _ hy)
    refine ⟨(c.kept x.target x.entries).length + n, ?_, ?_⟩
    · simp only [contributeAll, hfirst.result, hrest, Except.map, contributed_cons]
    · rw [contributed_cons, htotal, hfirst.total, Nat.add_assoc]

/-- A sealed collector takes none of them, and refuses the first. -/
theorem contributeAll_of_isSealed {c : Collector} (h : c.isSealed = true)
    {xs : List Contribution} (hxs : ∀ x ∈ xs, x.target.Admissible) :
    c.contributeAll xs
      = (match xs with
          | [] => .ok 0
          | x :: _ => .error (.registrySealed x.target.kind x.target.scope), c) := by
  cases xs with
  | nil => rfl
  | cons x xs =>
    obtain ⟨hresult, hcollector⟩ :=
      Contribution.add_of_isSealed h (hxs x List.mem_cons_self)
    simp only [contributeAll, hresult, hcollector]

/-- Whether the collector is open or sealed: it takes all or nothing, and its total
grows by the answer. -/
theorem Tracks.contributeAll {c : Collector} (h : c.Tracks) {xs : List Contribution}
    (hxs : ∀ x ∈ xs, x.target.Admissible) :
    ((c.contributeAll xs).2 = c ∨ (c.contributeAll xs).2 = c.contributed xs)
      ∧ (c.contributeAll xs).2.totalPaths
        = c.totalPaths + counted (c.contributeAll xs).1 := by
  by_cases hsealed : c.isSealed = true
  · rw [contributeAll_of_isSealed hsealed hxs]
    refine ⟨.inl rfl, ?_⟩
    cases xs <;> rfl
  · have hready : c.Ready := ⟨by simpa using hsealed, h⟩
    obtain ⟨n, heq, htotal⟩ := hready.contributeAll_eq hxs
    rw [heq]
    exact ⟨.inr rfl, htotal⟩

end Collector

end CoverageRegistry
