import CoverageRegistry.Collector

/-!
# The first of each place

A bucket keeps the first of several entries that name one place. `firsts` says
this of a whole list, without a set of known paths: an item is dropped exactly
when an earlier item, dropped or not, names its place. The main statement
`Bucket.Tracks.pushed` is that pushing a batch appends what `firstsAfter`
keeps of it.
-/

namespace CoverageRegistry

section Firsts

variable {α β : Type}

/-! ## Lists without repeated places -/

/-- An item of the list names the place of a path. -/
def Names (place : α → Path) (items : List α) (p : Path) : Prop :=
  ∃ item ∈ items, (place item).SameAs p

instance (place : α → Path) (items : List α) (p : Path) :
    Decidable (Names place items p) :=
  inferInstanceAs (Decidable (∃ item ∈ items, _))

/-- The items of a list that name no place an earlier item names; `before` are the
items in front of the list. -/
def firstsAfter (place : α → Path) (before : List α) : List α → List α
  | [] => []
  | item :: rest =>
      if Names place before (place item) then
        firstsAfter place (before ++ [item]) rest
      else item :: firstsAfter place (before ++ [item]) rest

/-- The items of a list, the first for each place. -/
def firsts (place : α → Path) (items : List α) : List α :=
  firstsAfter place [] items

@[simp] theorem names_nil (place : α → Path) (p : Path) : ¬ Names place [] p := by
  simp [Names]

theorem names_append {place : α → Path} {xs ys : List α} {p : Path} :
    Names place (xs ++ ys) p ↔ Names place xs p ∨ Names place ys p := by
  simp [Names, or_and_right, exists_or]

theorem names_cons {place : α → Path} {item : α} {rest : List α} {p : Path} :
    Names place (item :: rest) p ↔ (place item).SameAs p ∨ Names place rest p := by
  simp [Names]

theorem names_singleton {place : α → Path} {item : α} {p : Path} :
    Names place [item] p ↔ (place item).SameAs p := by
  simp [Names]

theorem names_map {place : α → Path} {f : β → α} {items : List β} {p : Path} :
    Names place (items.map f) p ↔ Names (fun item => place (f item)) items p := by
  constructor
  · rintro ⟨_, hmem, hp⟩
    obtain ⟨item, hitem, rfl⟩ := List.mem_map.mp hmem
    exact ⟨item, hitem, hp⟩
  · rintro ⟨item, hitem, hp⟩
    exact ⟨f item, List.mem_map_of_mem hitem, hp⟩

theorem Names.congr_path {place : α → Path} {items : List α} {p q : Path}
    (h : p.SameAs q) : Names place items p ↔ Names place items q := by
  constructor
  · rintro ⟨item, hmem, hp⟩
    exact ⟨item, hmem, hp.trans h⟩
  · rintro ⟨item, hmem, hq⟩
    exact ⟨item, hmem, hq.trans h.symm⟩

/-- Only the places of the items in front count. -/
theorem firstsAfter_congr {place : α → Path} (items : List α) :
    ∀ {before before' : List α},
    (∀ p, Names place before p ↔ Names place before' p) →
      firstsAfter place before items = firstsAfter place before' items := by
  induction items with
  | nil => intro before before' _; rfl
  | cons item rest ih =>
    intro before before' h
    have hnext : ∀ p, Names place (before ++ [item]) p
        ↔ Names place (before' ++ [item]) p := by
      intro p
      rw [names_append, names_append, h p]
    simp only [firstsAfter, h, ih hnext]

theorem firstsAfter_append (place : α → Path) (xs : List α) :
    ∀ (before ys : List α),
    firstsAfter place before (xs ++ ys)
      = firstsAfter place before xs ++ firstsAfter place (before ++ xs) ys := by
  induction xs with
  | nil => intro before ys; simp [firstsAfter]
  | cons x xs ih =>
    intro before ys
    rw [List.cons_append, firstsAfter, firstsAfter, ih,
      show before ++ x :: xs = before ++ [x] ++ xs by simp]
    split <;> rfl

/-- The kept items, with those in front, name the same places as all items. -/
theorem names_firstsAfter {place : α → Path} (items : List α) :
    ∀ {before : List α} {p : Path},
    Names place (before ++ firstsAfter place before items) p
      ↔ Names place (before ++ items) p := by
  induction items with
  | nil => intro before p; rfl
  | cons item rest ih =>
    intro before p
    have hall : Names place
        (before ++ [item] ++ firstsAfter place (before ++ [item]) rest) p
          ↔ Names place (before ++ [item] ++ rest) p := ih
    simp only [names_append, names_singleton] at hall
    rw [show before ++ item :: rest = before ++ [item] ++ rest by simp, firstsAfter]
    simp only [names_append, names_singleton]
    split
    · rename_i hknown
      rw [← hall]
      constructor
      · exact fun h => h.elim (fun h => .inl (.inl h)) .inr
      · rintro ((h | h) | h)
        · exact .inl h
        · exact .inl ((Names.congr_path h).mp hknown)
        · exact .inr h
    · rw [← hall, names_cons, or_assoc]

theorem mem_of_mem_firstsAfter {place : α → Path} {item : α} (items : List α) :
    ∀ {before : List α}, item ∈ firstsAfter place before items → item ∈ items := by
  induction items with
  | nil => intro before h; cases h
  | cons first rest ih =>
    intro before h
    rw [firstsAfter] at h
    split at h
    · exact List.mem_cons_of_mem _ (ih h)
    · rcases List.mem_cons.mp h with rfl | h
      · exact List.mem_cons_self
      · exact List.mem_cons_of_mem _ (ih h)

theorem map_firstsAfter (place : α → Path) (f : β → α) (items : List β) :
    ∀ before : List β,
    (firstsAfter (fun item => place (f item)) before items).map f
      = firstsAfter place (before.map f) (items.map f) := by
  induction items with
  | nil => intro before; rfl
  | cons item rest ih =>
    intro before
    have hrest := ih (before ++ [item])
    rw [List.map_append, List.map_singleton] at hrest
    simp only [firstsAfter, List.map_cons, names_map]
    split
    · exact hrest
    · rw [List.map_cons, hrest]

theorem map_firsts (place : α → Path) (f : β → α) (items : List β) :
    (firsts (fun item => place (f item)) items).map f
      = firsts place (items.map f) :=
  map_firstsAfter place f items []

end Firsts

/-! ## Repetitions -/

/-- The paths of a list are the same octets wherever they are the same place. -/
def Canonical (paths : List Path) : Prop :=
  ∀ p ∈ paths, ∀ q ∈ paths, p.SameAs q → p = q

theorem firstsAfter_eq_eraseDups (items : List Path) :
    ∀ before : List Path, Canonical (before ++ items) →
      firstsAfter id before items
        = (items.filter fun p => !before.contains p).eraseDups := by
  induction items with
  | nil => intro before _; rfl
  | cons item rest ih =>
    intro before h
    have hnames : Names id before (id item) ↔ item ∈ before := by
      constructor
      · rintro ⟨p, hp, hsame⟩
        have heq : p = item := h p (by simp [hp]) item (by simp) hsame
        exact heq ▸ hp
      · exact fun hmem => ⟨item, hmem, rfl⟩
    have hrest := ih (before ++ [item]) (by simpa using h)
    rw [firstsAfter, hrest]
    by_cases hmem : item ∈ before
    · -- the item is dropped on both sides, and to stand in front again says nothing new
      have hfilter : ∀ p, (!(before ++ [item]).contains p) = !before.contains p := by
        intro p
        by_cases hp : p = item <;> simp [hp, hmem]
      rw [if_pos (hnames.mpr hmem), List.filter_cons_of_neg (by simp [hmem])]
      simp only [hfilter]
    · -- the item is kept, and leaves the rest together with those in front
      have hfilter : (rest.filter fun p => !(before ++ [item]).contains p)
          = (rest.filter fun p => !before.contains p).filter fun p => !p == item := by
        rw [List.filter_filter]
        refine List.filter_congr fun p _ => ?_
        by_cases hp : p = item <;> simp [hp]
      rw [if_neg fun hn => hmem (hnames.mp hn),
        List.filter_cons_of_pos (by simp [hmem]), List.eraseDups_cons, hfilter]

/-- To keep the first of each place is then to drop repetitions. -/
theorem firsts_eq_eraseDups {paths : List Path} (h : Canonical paths) :
    firsts id paths = paths.eraseDups := by
  have hall : (paths.filter fun p => !([] : List Path).contains p) = paths :=
    List.filter_eq_self.mpr fun _ _ => rfl
  rw [firsts, firstsAfter_eq_eraseDups paths [] h, hall]

namespace Bucket

/-! ## Pushing into a bucket -/

/-- The known paths are those of the entries. -/
def Tracks (b : Bucket) : Prop :=
  ∀ p, b.seen.contains p = true ↔ Names ReportEntry.path b.entries p

theorem tracks_empty (key : BucketKey) : (empty key).Tracks := by
  intro p
  simp [empty, Std.TreeSet.contains_emptyc]

theorem push_of_names {b : Bucket} (h : b.Tracks) {entry : ReportEntry}
    (hknown : Names ReportEntry.path b.entries entry.path) :
    b.push entry = (b, false) := by
  rw [push, if_pos ((h entry.path).mpr hknown)]

theorem push_of_not_names {b : Bucket} (h : b.Tracks) {entry : ReportEntry}
    (hnew : ¬ Names ReportEntry.path b.entries entry.path) :
    (b.push entry).1.entries = b.entries ++ [entry] ∧ (b.push entry).2 = true
      ∧ (b.push entry).1.Tracks := by
  have hseen : ¬ b.seen.contains entry.path = true := fun hc =>
    hnew ((h entry.path).mp hc)
  rw [push, if_neg hseen]
  refine ⟨rfl, rfl, fun p => ?_⟩
  rw [names_append, names_singleton, ← h p, Std.TreeSet.contains_insert,
    Bool.or_eq_true, beq_iff_eq, Path.compare_eq_eq_iff, or_comm]

theorem push_key (b : Bucket) (entry : ReportEntry) : (b.push entry).1.key = b.key := by
  unfold push
  split <;> rfl

theorem pushAll_key (entries : List ReportEntry) :
    ∀ b : Bucket, (b.pushAll entries).1.key = b.key := by
  induction entries with
  | nil => intro b; rfl
  | cons entry rest ih =>
    intro b
    show ((b.push entry).1.pushAll rest).1.key = b.key
    rw [ih, push_key]

/-- All that pushing a batch does: it appends the entries that name new places, the
first for each, and answers their number; the known paths are again those of the
entries. -/
structure Pushed (b : Bucket) (batch : List ReportEntry) (answer : Bucket × Nat) :
    Prop where
  entries : answer.1.entries
    = b.entries ++ firstsAfter ReportEntry.path b.entries batch
  count : answer.2 = (firstsAfter ReportEntry.path b.entries batch).length
  tracks : answer.1.Tracks

theorem Tracks.pushed (batch : List ReportEntry) :
    ∀ {b : Bucket}, b.Tracks → b.Pushed batch (b.pushAll batch) := by
  induction batch with
  | nil => intro b h; exact ⟨by simp [pushAll, firstsAfter], rfl, h⟩
  | cons entry rest ih =>
    intro b h
    by_cases hknown : Names ReportEntry.path b.entries entry.path
    · -- a known entry adds no place to those in front of the rest
      have hplaces : ∀ p, Names ReportEntry.path b.entries p
          ↔ Names ReportEntry.path (b.entries ++ [entry]) p := by
        intro p
        rw [names_append, names_singleton]
        exact ⟨.inl, fun hp => hp.elim id fun hsame =>
          (Names.congr_path hsame).mp hknown⟩
      have hkept : firstsAfter ReportEntry.path b.entries (entry :: rest)
          = firstsAfter ReportEntry.path b.entries rest := by
        rw [firstsAfter, if_pos hknown, ← firstsAfter_congr rest hplaces]
      have hrest := ih h
      have hpush := push_of_names h hknown
      refine ⟨?_, ?_, ?_⟩
      · rw [pushAll, hpush, hkept]
        exact hrest.entries
      · rw [pushAll, hpush, hkept]
        exact (Nat.zero_add _).trans hrest.count
      · rw [pushAll, hpush]
        exact hrest.tracks
    · have hkept : firstsAfter ReportEntry.path b.entries (entry :: rest)
          = entry :: firstsAfter ReportEntry.path (b.entries ++ [entry]) rest := by
        rw [firstsAfter, if_neg hknown]
      obtain ⟨hentries, hadded, htracks⟩ := push_of_not_names h hknown
      have hrest := ih htracks
      refine ⟨?_, ?_, hrest.tracks⟩
      · rw [hkept]
        refine hrest.entries.trans ?_
        rw [hentries]
        simp
      · have hcount : ((b.push entry).1.pushAll rest).2
            = (firstsAfter ReportEntry.path (b.entries ++ [entry]) rest).length := by
          rw [hrest.count, hentries]
        rw [hkept, pushAll, hadded, List.length_cons, ← hcount]
        exact Nat.add_comm 1 _

end Bucket

end CoverageRegistry
