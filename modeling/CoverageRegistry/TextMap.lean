/-!
# Maps with text keys

A map whose entries stand in the order of their keys, each key once. The order is part of the type,
so two maps with the same entries are equal. Main statements: `get?_insert` says what a map holds
after an insertion, and `ext_get?` that a map is determined by what it holds.
-/
namespace CoverageRegistry

/-- A map from texts to values, in the order of the texts. -/
structure TextMap (α : Type) where
  entries : List (String × α)
  sorted : entries.Pairwise fun a b => a.1 < b.1
  deriving DecidableEq, Repr

namespace TextMap

variable {α : Type}

/-- The map without entries. -/
def empty : TextMap α := ⟨[], .nil⟩

instance : EmptyCollection (TextMap α) := ⟨empty⟩

instance : Inhabited (TextMap α) := ⟨empty⟩

/-- The keys of a map, in order. -/
def keys (m : TextMap α) : List String :=
  m.entries.map Prod.fst

/-- The values of a map, in the order of their keys. -/
def values (m : TextMap α) : List α :=
  m.entries.map Prod.snd

/-- The value of the first entry that has a key. -/
def valueOf? (key : String) : List (String × α) → Option α
  | [] => none
  | (k, v) :: rest => if key = k then some v else valueOf? key rest

/-- The value of a key. -/
def get? (m : TextMap α) (key : String) : Option α :=
  valueOf? key m.entries

/-- Whether a map has a key. -/
def contains (m : TextMap α) (key : String) : Bool :=
  (m.get? key).isSome

/-- The number of keys. -/
def size (m : TextMap α) : Nat :=
  m.entries.length

/-- Puts an entry where its key belongs; it replaces an entry of the same key. -/
def insertEntry (key : String) (value : α) : List (String × α) → List (String × α)
  | [] => [(key, value)]
  | (k, v) :: rest =>
    if key < k then (key, value) :: (k, v) :: rest
    else if key = k then (key, value) :: rest
    else (k, v) :: insertEntry key value rest

theorem mem_insertEntry {key : String} {value : α} {entries : List (String × α)}
    {entry : String × α} (h : entry ∈ insertEntry key value entries) :
    entry = (key, value) ∨ entry ∈ entries := by
  induction entries with
  | nil => simpa [insertEntry] using h
  | cons head rest ih =>
    simp only [insertEntry] at h
    split at h
    · simpa using h
    · split at h
      · rcases List.mem_cons.1 h with h | h
        · exact .inl h
        · exact .inr (List.mem_cons_of_mem _ h)
      · rcases List.mem_cons.1 h with h | h
        · exact .inr (h ▸ List.mem_cons_self)
        · exact (ih h).imp_right (List.mem_cons_of_mem _)

theorem lt_of_not_lt_of_ne {a b : String} (h : ¬a < b) (hne : a ≠ b) : b < a := by
  rcases String.le_total a b with hab | hba
  · exact absurd (String.le_antisymm hab (String.not_lt.1 h)) hne
  · exact String.not_le.1 fun hab => hne (String.le_antisymm hab hba)

theorem pairwise_insertEntry (key : String) (value : α) {entries : List (String × α)}
    (h : entries.Pairwise fun a b => a.1 < b.1) :
    (insertEntry key value entries).Pairwise fun a b => a.1 < b.1 := by
  induction entries with
  | nil => simp [insertEntry]
  | cons head rest ih =>
    obtain ⟨hhead, hrest⟩ := List.pairwise_cons.1 h
    simp only [insertEntry]
    split
    · rename_i hlt
      refine List.pairwise_cons.2 ⟨fun entry hentry => ?_, h⟩
      rcases List.mem_cons.1 hentry with rfl | hentry
      · exact hlt
      · exact String.lt_trans hlt (hhead entry hentry)
    · rename_i hlt
      split
      · rename_i heq
        exact List.pairwise_cons.2 ⟨fun entry hentry => heq ▸ hhead entry hentry, hrest⟩
      · rename_i hne
        refine List.pairwise_cons.2 ⟨fun entry hentry => ?_, ih hrest⟩
        rcases mem_insertEntry hentry with rfl | hentry
        · exact lt_of_not_lt_of_ne hlt hne
        · exact hhead entry hentry

/-- Gives a key a value; an earlier value of the key is replaced. -/
def insert (m : TextMap α) (key : String) (value : α) : TextMap α :=
  ⟨insertEntry key value m.entries, pairwise_insertEntry key value m.sorted⟩

/-- The map of a list of pairs; of two pairs with one key the later one counts. -/
def ofList (pairs : List (String × α)) : TextMap α :=
  pairs.foldl (fun m pair => m.insert pair.1 pair.2) empty

/-- The same keys with other values. -/
def map {β : Type} (f : String → α → β) (m : TextMap α) : TextMap β :=
  ⟨m.entries.map fun entry => (entry.1, f entry.1 entry.2), List.pairwise_map.2 m.sorted⟩

theorem valueOf?_insertEntry (key : String) (value : α) (entries : List (String × α))
    (other : String) :
    valueOf? other (insertEntry key value entries) =
      if other = key then some value else valueOf? other entries := by
  induction entries with
  | nil => rfl
  | cons head rest ih =>
    simp only [insertEntry]
    split
    · rfl
    · split
      · rename_i heq
        by_cases h : other = key <;> simp [valueOf?, ← heq, h]
      · rename_i hne
        simp only [valueOf?, ih]
        by_cases h : other = key
        · simp [h, hne]
        · simp [h]

theorem valueOf?_map {β : Type} (f : String → α → β) (key : String)
    (entries : List (String × α)) :
    valueOf? key (entries.map fun entry => (entry.1, f entry.1 entry.2)) =
      (valueOf? key entries).map (f key) := by
  induction entries with
  | nil => rfl
  | cons head rest ih =>
    simp only [List.map_cons, valueOf?]
    split
    · rename_i heq
      simp [heq]
    · exact ih

theorem get?_map {β : Type} (f : String → α → β) (m : TextMap α) (key : String) :
    (m.map f).get? key = (m.get? key).map (f key) :=
  valueOf?_map f key m.entries

@[simp] theorem get?_empty (key : String) : (empty : TextMap α).get? key = none := rfl

/-- An insertion changes what the map holds at its key only. -/
theorem get?_insert (m : TextMap α) (key : String) (value : α) (other : String) :
    (m.insert key value).get? other = if other = key then some value else m.get? other :=
  valueOf?_insertEntry key value m.entries other

@[simp] theorem get?_insert_self (m : TextMap α) (key : String) (value : α) :
    (m.insert key value).get? key = some value := by
  simp [get?_insert]

theorem get?_insert_of_ne (m : TextMap α) {key other : String} (value : α) (h : other ≠ key) :
    (m.insert key value).get? other = m.get? other := by
  simp [get?_insert, h]

@[ext] theorem ext {m n : TextMap α} (h : m.entries = n.entries) : m = n := by
  cases m
  cases n
  cases h
  rfl

theorem valueOf?_eq_none_of_lt {key : String} {entries : List (String × α)}
    (h : ∀ entry ∈ entries, key < entry.1) : valueOf? key entries = none := by
  induction entries with
  | nil => rfl
  | cons head rest ih =>
    have hne : key ≠ head.1 := fun heq =>
      String.lt_irrefl head.1 (by simpa [heq] using h head List.mem_cons_self)
    simp [valueOf?, hne, ih fun entry hentry => h entry (List.mem_cons_of_mem _ hentry)]

theorem valueOf?_eq_none_of_lt_head {key : String} {head : String × α}
    {rest : List (String × α)} (hlt : key < head.1) (h : ∀ entry ∈ rest, head.1 < entry.1) :
    valueOf? key (head :: rest) = none := by
  refine valueOf?_eq_none_of_lt fun entry hentry => ?_
  rcases List.mem_cons.1 hentry with rfl | hentry
  · exact hlt
  · exact String.lt_trans hlt (h entry hentry)

theorem eq_of_valueOf?_eq {xs ys : List (String × α)}
    (hx : xs.Pairwise fun a b => a.1 < b.1) (hy : ys.Pairwise fun a b => a.1 < b.1)
    (h : ∀ key, valueOf? key xs = valueOf? key ys) : xs = ys := by
  induction xs generalizing ys with
  | nil =>
    cases ys with
    | nil => rfl
    | cons y ys => simpa [valueOf?] using h y.1
  | cons x xs ih =>
    cases ys with
    | nil => simpa [valueOf?] using h x.1
    | cons y ys =>
      obtain ⟨hxs, hxt⟩ := List.pairwise_cons.1 hx
      obtain ⟨hys, hyt⟩ := List.pairwise_cons.1 hy
      have hkey : x.1 = y.1 := by
        by_cases hlt : x.1 < y.1
        · have hxy := h x.1
          rw [valueOf?_eq_none_of_lt_head hlt hys] at hxy
          simp [valueOf?] at hxy
        · by_cases heq : x.1 = y.1
          · exact heq
          · have hxy := h y.1
            rw [valueOf?_eq_none_of_lt_head (lt_of_not_lt_of_ne hlt heq) hxs] at hxy
            simp [valueOf?] at hxy
      have hvalue : x.2 = y.2 := by simpa [valueOf?, hkey] using h x.1
      obtain rfl : x = y := Prod.ext hkey hvalue
      refine congrArg (x :: ·) (ih hxt hyt fun key => ?_)
      by_cases heq : key = x.1
      · rw [heq, valueOf?_eq_none_of_lt hxs, valueOf?_eq_none_of_lt hys]
      · simpa [valueOf?, heq] using h key

/-- A map is determined by what it holds. -/
theorem ext_get? {m n : TextMap α} (h : ∀ key, m.get? key = n.get? key) : m = n :=
  ext (eq_of_valueOf?_eq m.sorted n.sorted h)

end TextMap

end CoverageRegistry
