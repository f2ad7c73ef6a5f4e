import CoverageRegistry.Proofs.Collector.Open

/-!
# Contributions in another order

Several contributors share one open collector, and their calls may come in any order.
The order decides which of two contributors of a place is kept, and nothing else: a
bucket ends with the places that were offered to it (`nodup_places`, `places_perm`).
Calls to different buckets do not see each other (`answers_filter`), so an order that
keeps the calls to each bucket as they were changes no entry and no answer.
-/

namespace CoverageRegistry

/-! ## The first of each place, in another order -/

section Firsts

variable {α : Type} {place : α → Path}

/-- Lists with the same items of every kind are permutations of each other. -/
theorem perm_of_filter_perm {κ : Type} [DecidableEq κ] (kind : α → κ) {xs ys : List α}
    (h : ∀ k, (xs.filter fun x => kind x = k).Perm (ys.filter fun y => kind y = k)) :
    xs.Perm ys := by
  classical
  rw [List.perm_iff_count]
  intro x
  have hcount : ∀ items : List α,
      (items.filter fun item => kind item = kind x).count x = items.count x := by
    intro items
    exact List.count_filter (by simp)
  rw [← hcount xs, ← hcount ys]
  exact (h (kind x)).count_eq x

theorem not_names_of_mem_firstsAfter {item : α} (items : List α) :
    ∀ {before : List α}, item ∈ firstsAfter place before items →
      ¬ Names place before (place item) := by
  induction items with
  | nil => intro before h; cases h
  | cons first rest ih =>
    intro before h
    -- an item of the rest names nothing in front of it, so nothing in front of all
    have hrest : item ∈ firstsAfter place (before ++ [first]) rest →
        ¬ Names place before (place item) := by
      intro hmem hnames
      exact ih hmem (names_append.mpr (.inl hnames))
    rw [firstsAfter] at h
    split at h
    · exact hrest h
    · rename_i hnew
      rcases List.mem_cons.mp h with rfl | h
      · exact hnew
      · exact hrest h

/-- The places of items: the components of their paths. -/
def placesOf (place : α → Path) (items : List α) : List (List Component) :=
  items.map fun item => (place item).components

theorem mem_placesOf {items : List α} {p : Path} :
    p.components ∈ placesOf place items ↔ Names place items p :=
  List.mem_map

theorem nodup_firstsAfter (items : List α) :
    ∀ before : List α, (placesOf place (firstsAfter place before items)).Nodup := by
  induction items with
  | nil => intro before; exact List.nodup_nil
  | cons item rest ih =>
    intro before
    rw [firstsAfter]
    split
    · exact ih _
    · rw [placesOf, List.map_cons, List.nodup_cons]
      refine ⟨?_, ih _⟩
      intro hmem
      obtain ⟨other, hother, hsame⟩ := List.mem_map.mp hmem
      refine not_names_of_mem_firstsAfter rest hother (names_append.mpr (.inr ?_))
      exact names_singleton.mpr hsame.symm

theorem nodup_firsts (items : List α) : (placesOf place (firsts place items)).Nodup :=
  nodup_firstsAfter items []

theorem mem_placesOf_firsts (items : List α) (c : List Component) :
    c ∈ placesOf place (firsts place items) ↔ c ∈ placesOf place items := by
  have hall : ∀ p : Path, p.components ∈ placesOf place (firsts place items)
      ↔ p.components ∈ placesOf place items := by
    intro p
    rw [mem_placesOf, mem_placesOf]
    exact @names_firstsAfter α place items [] p
  constructor
  · intro h
    obtain ⟨item, -, rfl⟩ := List.mem_map.mp h
    exact (hall (place item)).mp h
  · intro h
    obtain ⟨item, -, rfl⟩ := List.mem_map.mp h
    exact (hall (place item)).mpr h

/-- The kept items are the same places, whatever the order of the items. -/
theorem placesOf_firsts_perm {xs ys : List α} (h : xs.Perm ys) :
    (placesOf place (firsts place xs)).Perm (placesOf place (firsts place ys)) := by
  refine (List.perm_ext_iff_of_nodup (nodup_firsts xs) (nodup_firsts ys)).mpr ?_
  intro c
  rw [mem_placesOf_firsts, mem_placesOf_firsts]
  exact (h.map _).mem_iff

end Firsts

namespace Collector

/-! ## The places of a bucket -/

/-- The places that a kind and a scope hold: the components of their paths. -/
def places (c : Collector) (kind : ReportKind) (scope : Option TestScope) :
    List (List Component) :=
  (c.snapshot kind scope).map Path.components

theorem places_contributed_fresh (language : Option String) (xs : List Contribution)
    (kind : ReportKind) (scope : Option TestScope) :
    ((fresh language).contributed xs).places kind scope
      = if (BucketKey.mk kind scope).Admissible then
          placesOf Item.path
            (firsts Item.path (xs.flatMap (Contribution.offers ⟨kind, scope⟩)))
        else [] := by
  rw [places, snapshot, entries_contributed_fresh]
  split
  · rw [List.map_map, List.map_map]
    rfl
  · rfl

theorem nodup_places (language : Option String) (xs : List Contribution)
    (kind : ReportKind) (scope : Option TestScope) :
    (((fresh language).contributed xs).places kind scope).Nodup := by
  rw [places_contributed_fresh]
  split
  · exact nodup_firsts _
  · exact List.nodup_nil

theorem places_perm (language : Option String) {xs ys : List Contribution}
    (h : xs.Perm ys) (kind : ReportKind) (scope : Option TestScope) :
    (((fresh language).contributed xs).places kind scope).Perm
      (((fresh language).contributed ys).places kind scope) := by
  rw [places_contributed_fresh, places_contributed_fresh]
  split
  · exact placesOf_firsts_perm (h.flatMap_right _)
  · exact .refl _

theorem total_eq_sum_places (language : Option String) (xs : List Contribution) :
    ((fresh language).contributed xs).totalPaths
      = (BucketKey.all.map fun key =>
          (((fresh language).contributed xs).places key.kind key.scope).length).sum := by
  obtain ⟨htotal, hsum⟩ := totals_after (tracks_fresh language)
    (xs.map Operation.contribute)
  obtain ⟨htotal₀, hsum₀⟩ := totals_fresh language
  rw [htotal₀, ← hsum₀, ← hsum] at htotal
  refine htotal.trans ?_
  simp only [sumOfBuckets, places, snapshot, List.length_map]
  rfl

theorem total_perm (language : Option String) {xs ys : List Contribution}
    (h : xs.Perm ys) :
    ((fresh language).contributed xs).totalPaths
      = ((fresh language).contributed ys).totalPaths := by
  rw [total_eq_sum_places, total_eq_sum_places]
  refine congrArg List.sum (List.map_congr_left fun key _ => ?_)
  exact (places_perm language h key.kind key.scope).length_eq

theorem phase_perm (language : Option String) {xs ys : List Contribution}
    (h : xs.Perm ys) :
    ((fresh language).contributed xs).phase
      = ((fresh language).contributed ys).phase := by
  have hfills : (∃ x ∈ xs, x.Fills) ↔ ∃ y ∈ ys, y.Fills := by
    simp only [h.mem_iff]
  rw [(ready_fresh language).phase_contributed, (ready_fresh language).phase_contributed]
  simp only [hfills]

/-! ## Calls to one bucket -/

section Calls

variable {ι : Type}

/-- The calls that address a bucket. -/
def callsTo (key : BucketKey) (calls : List (Call ι)) : List (Call ι) :=
  calls.filter fun call => call.2.target = key

theorem flatMap_offers_callsTo (key : BucketKey) (calls : List (Call ι)) :
    ((callsTo key calls).map Prod.snd).flatMap (Contribution.offers key)
      = (calls.map Prod.snd).flatMap (Contribution.offers key) := by
  induction calls with
  | nil => rfl
  | cons call calls ih =>
    by_cases hkey : call.2.target = key
    · simp only [callsTo, hkey, List.filter_cons, decide_true, if_true, List.map_cons,
        List.flatMap_cons] at ih ⊢
      rw [ih]
    · simp only [callsTo, hkey, List.filter_cons, decide_false, Bool.false_eq_true,
        if_false, List.map_cons, List.flatMap_cons, Contribution.offers_of_ne hkey,
        List.nil_append] at ih ⊢
      exact ih

/-- Two open collectors with the same entries in a bucket answer the calls to it
alike, also where one of them gets other calls between. -/
theorem answers_filter {key : BucketKey} (hkey : key.Admissible)
    (calls : List (Call ι)) :
    ∀ {c c' : Collector}, c.Ready → c'.Ready →
      (c.bucket key).entries = (c'.bucket key).entries →
      ((c.answers calls).filter fun answer => answer.1.2.target = key)
        = c'.answers (callsTo key calls) := by
  -- by the calls: one to the bucket is made on both sides, any other leaves the bucket
  induction calls with
  | nil => intro c c' _ _ _; rfl
  | cons call calls ih =>
    intro c c' h h' hsame
    by_cases htarget : call.2.target = key
    · have hresult : (call.2.add c).result = (call.2.add c').result := by
        have hadmissible : call.2.target.Admissible := htarget ▸ hkey
        rw [(h.accepted hadmissible).result, (h'.accepted hadmissible).result, kept, kept,
          htarget, hsame]
      have hrest := ih (h.add call.2) (h'.add call.2) (by
        rw [h.entries_add hkey, h'.entries_add hkey, kept, kept, hsame])
      simp only [answers, callsTo, List.filter_cons, htarget, decide_true, if_true,
        hresult] at hrest ⊢
      rw [hrest]
    · have hrest := ih (h.add call.2) h' (by
        rw [h.entries_add hkey, Contribution.offers_of_ne htarget, ← hsame]
        exact List.append_nil _)
      simp only [answers, callsTo, List.filter_cons, htarget, decide_false,
        Bool.false_eq_true, if_false] at hrest ⊢
      exact hrest

/-- A call that names no bucket is answered the same wherever it stands. -/
theorem answers_filter_of_not_admissible {key : BucketKey} (hkey : ¬ key.Admissible)
    (calls : List (Call ι)) :
    ∀ c : Collector,
    ((c.answers calls).filter fun answer => answer.1.2.target = key)
      = (callsTo key calls).map fun call =>
          (call, .error (.scopeMismatch key.kind key.scope)) := by
  induction calls with
  | nil => intro c; rfl
  | cons call calls ih =>
    intro c
    have hrest := ih (call.2.add c).collector
    by_cases htarget : call.2.target = key
    · have hresult : (call.2.add c).result
          = .error (.scopeMismatch key.kind key.scope) := by
        rw [Contribution.add_of_not_admissible (htarget ▸ hkey), htarget]
      simp only [answers, callsTo, List.filter_cons, htarget, decide_true, if_true,
        hresult, List.map_cons] at hrest ⊢
      rw [hrest]
    · simp only [answers, callsTo, List.filter_cons, htarget, decide_false,
        Bool.false_eq_true, if_false] at hrest ⊢
      exact hrest

/-- An order that keeps the calls to each bucket as they were changes no answer. -/
theorem answers_perm {calls calls' : List (Call ι)} (h : calls.Perm calls')
    (hsame : ∀ key : BucketKey, key.Admissible → callsTo key calls = callsTo key calls')
    {c : Collector} (hc : c.Ready) : (c.answers calls).Perm (c.answers calls') := by
  refine perm_of_filter_perm (fun answer => answer.1.2.target) fun key => ?_
  by_cases hkey : key.Admissible
  · rw [answers_filter hkey calls hc hc rfl, answers_filter hkey calls' hc hc rfl,
      hsame key hkey]
  · rw [answers_filter_of_not_admissible hkey, answers_filter_of_not_admissible hkey]
    exact (h.filter _).map _

/-- Nor does it change an entry. -/
theorem entries_of_callsTo_eq (language : Option String) {calls calls' : List (Call ι)}
    (hsame : ∀ key : BucketKey, key.Admissible → callsTo key calls = callsTo key calls')
    (kind : ReportKind) (scope : Option TestScope) :
    ((fresh language).contributed (calls.map Prod.snd)).entries kind scope
      = ((fresh language).contributed (calls'.map Prod.snd)).entries kind scope := by
  rw [entries_contributed_fresh, entries_contributed_fresh]
  split
  · rename_i hkey
    rw [← flatMap_offers_callsTo _ calls, hsame _ hkey, flatMap_offers_callsTo]
  · rfl

/-- **The order of contributors decides only who comes first.** Two orders of the same
calls to a fresh collector, as they arise from any interleaving of its contributors,
accept the same calls, end in the same phase with the same total, give every bucket
the same places, each once, and answer numbers with the same sum. If the calls that
address one bucket stand in the same order, every bucket has the same entries, with
their octets and modules, and every call, told apart by its label, gets the same
answer. -/
theorem contributions_reordered (language : Option String) {calls calls' : List (Call ι)}
    (h : calls.Perm calls') :
    let c := (fresh language).contributed (calls.map Prod.snd)
    let c' := (fresh language).contributed (calls'.map Prod.snd)
    let log := (fresh language).answers calls
    let log' := (fresh language).answers calls'
    (log.map fun answer => (answer.1, answer.2.isOk)).Perm
        (log'.map fun answer => (answer.1, answer.2.isOk))
      ∧ c.phase = c'.phase
      ∧ c.totalPaths = c'.totalPaths
      ∧ (∀ kind scope, (c.places kind scope).Nodup
        ∧ (c.places kind scope).Perm (c'.places kind scope))
      ∧ (log.map fun answer => counted answer.2).sum
        = (log'.map fun answer => counted answer.2).sum
      ∧ ((∀ key : BucketKey, key.Admissible → callsTo key calls = callsTo key calls') →
        (∀ kind scope, c.entries kind scope = c'.entries kind scope)
          ∧ log.Perm log') := by
  intro c c' log log'
  have hready : (fresh language).Ready := ready_fresh language
  have hcontributions : (calls.map Prod.snd).Perm (calls'.map Prod.snd) := h.map _
  have htotal : c.totalPaths = c'.totalPaths := total_perm language hcontributions
  have hsum : ∀ calls : List (Call ι),
      ((fresh language).contributed (calls.map Prod.snd)).totalPaths
        = (((fresh language).answers calls).map fun answer => counted answer.2).sum := by
    intro calls
    rw [hready.total_contributed, (totals_fresh language).1, Nat.zero_add]
  refine ⟨?_, phase_perm language hcontributions, htotal, fun kind scope =>
    ⟨nodup_places language _ kind scope, places_perm language hcontributions kind scope⟩,
    ?_, fun hsame => ⟨entries_of_callsTo_eq language hsame, answers_perm h hsame hready⟩⟩
  · rw [hready.isOk_answers, hready.isOk_answers]
    exact h.map _
  · rw [← hsum calls, ← hsum calls']
    exact htotal

end Calls

/-- Two contributors with one bucket, and a call to another bucket between them: made
first, it changes nothing; with the two contributors in reverse, the bucket keeps the
other spelling of the shared place. -/
theorem contributions_reordered_two_spellings :
    let first : Call String :=
      ("a", .modulePaths "app" .opencover (some .unit) [.ofText "/a/b"])
    let second : Call String :=
      ("b", .modulePaths "lib" .opencover (some .unit) [.ofText "/a//b", .ofText "/c"])
    let other : Call String := ("b", .protobufDirs [.ofText "/out"])
    let log := (fresh none).answers [first, other, second]
    let log' := (fresh none).answers [other, first, second]
    let c := (fresh none).contributed ([first, other, second].map Prod.snd)
    let c' := (fresh none).contributed ([second, other, first].map Prod.snd)
    log.Perm log'
      ∧ (c.places .opencover (some .unit)).Perm (c'.places .opencover (some .unit))
      ∧ c.snapshot .opencover (some .unit) = [.ofText "/a/b", .ofText "/c"]
      ∧ c'.snapshot .opencover (some .unit) = [.ofText "/a//b", .ofText "/c"] := by
  intro first second other log log' c c'
  have hmoved : [first, other, second].Perm [other, first, second] := .swap ..
  have hreversed : [first, other, second].Perm [second, other, first] :=
    (List.reverse_perm [first, other, second]).symm
  have hsame : ∀ key : BucketKey, key.Admissible →
      callsTo key [first, other, second] = callsTo key [other, first, second] := by
    rintro ⟨kind, scope⟩ -
    cases kind <;> rcases scope with _ | _ | _ <;> rfl
  obtain ⟨-, -, -, -, -, hkept⟩ := contributions_reordered none hmoved
  obtain ⟨-, -, -, hplaces, -⟩ := contributions_reordered none hreversed
  exact ⟨(hkept hsame).2, (hplaces .opencover (some .unit)).2, by decide +kernel,
    by decide +kernel⟩

end Collector

end CoverageRegistry
