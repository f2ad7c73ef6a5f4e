import Mathlib
import CoverageRegistry.TextMap

/-!
# Replacing a value in a map, filling a map from a list

A replacement keeps the keys and changes any sum over the values by the difference of
the two values (`sum_insert`). Such a sum can be read off key by key (`sum_values`),
so it is the same for two maps with the same keys and values that count alike.

A map that is filled from a list has the keys of the list (`mem_keys_ofList`), and its
entries where no key comes twice (`entries_ofList_perm`). The values can be changed in the
map or in the list (`map_ofList`).
-/

namespace CoverageRegistry.TextMap

variable {α : Type}

theorem get?_of_mem {m : TextMap α} {entry : String × α} (h : entry ∈ m.entries) :
    m.get? entry.1 = some entry.2 := by
  obtain ⟨entries, sorted⟩ := m
  show valueOf? entry.1 entries = some entry.2
  change entry ∈ entries at h
  induction entries with
  | nil => cases h
  | cons head rest ih =>
    obtain ⟨hhead, hrest⟩ := List.pairwise_cons.mp sorted
    rcases List.mem_cons.mp h with rfl | h
    · simp [valueOf?]
    · have hne : entry.1 ≠ head.1 := by
        intro heq
        exact String.lt_irrefl head.1 (heq ▸ hhead entry h)
      rw [valueOf?, if_neg hne, ih hrest h]

theorem contains_of_get? {m : TextMap α} {key : String} {value : α}
    (h : m.get? key = some value) : m.contains key = true := by
  rw [contains, h]
  rfl

theorem mem_of_get? {m : TextMap α} {key : String} {value : α}
    (h : m.get? key = some value) : (key, value) ∈ m.entries := by
  obtain ⟨entries, sorted⟩ := m
  change valueOf? key entries = some value at h
  show (key, value) ∈ entries
  induction entries with
  | nil => cases h
  | cons head rest ih =>
    rw [valueOf?] at h
    split at h
    · rename_i heq
      rw [heq, ← Option.some.inj h]
      exact List.mem_cons_self
    · exact List.mem_cons_of_mem _ (ih (List.pairwise_cons.mp sorted).2 h)

theorem contains_iff_mem_keys {m : TextMap α} {key : String} :
    m.contains key = true ↔ key ∈ m.keys := by
  constructor
  · intro h
    obtain ⟨value, hvalue⟩ := Option.isSome_iff_exists.mp h
    exact List.mem_map_of_mem (mem_of_get? hvalue)
  · intro h
    obtain ⟨entry, hentry, rfl⟩ := List.mem_map.mp h
    exact contains_of_get? (get?_of_mem hentry)

/-- A new key is put among the others. -/
theorem insertEntry_perm {key : String} {value : α} {entries : List (String × α)}
    (h : valueOf? key entries = none) :
    (insertEntry key value entries).Perm ((key, value) :: entries) := by
  induction entries with
  | nil => exact .refl _
  | cons head rest ih =>
    rw [valueOf?] at h
    rw [insertEntry]
    split at h
    · cases h
    · split
      · exact .refl _
      · exact ((ih h).cons head).trans (.swap _ _ _)

/-- To give a key the value it has changes nothing. -/
theorem insert_of_get? {m : TextMap α} {key : String} {value : α}
    (h : m.get? key = some value) : m.insert key value = m := by
  refine ext_get? fun other => ?_
  rw [get?_insert]
  split
  · rename_i heq
    rw [heq, h]
  · rfl

theorem nodup_keys (m : TextMap α) : m.keys.Nodup := by
  refine List.pairwise_map.mpr (m.sorted.imp ?_)
  intro a b hlt heq
  exact String.lt_irrefl b.1 (heq ▸ hlt)

theorem map_fst_insertEntry {key : String} {value : α} (entries : List (String × α))
    (sorted : entries.Pairwise fun a b => a.1 < b.1)
    (h : (valueOf? key entries).isSome = true) :
    (insertEntry key value entries).map Prod.fst = entries.map Prod.fst := by
  induction entries with
  | nil => cases h
  | cons head rest ih =>
    obtain ⟨hhead, hrest⟩ := List.pairwise_cons.mp sorted
    rw [insertEntry]
    split
    · rename_i hlt
      rw [valueOf?_eq_none_of_lt_head hlt hhead] at h
      cases h
    · split
      · rename_i heq
        rw [List.map_cons, List.map_cons, heq]
      · rename_i hne
        rw [valueOf?, if_neg hne] at h
        rw [List.map_cons, List.map_cons, ih hrest h]

theorem keys_insert {m : TextMap α} {key : String} (h : m.contains key = true)
    (value : α) : (m.insert key value).keys = m.keys :=
  map_fst_insertEntry m.entries m.sorted h

/-! ## Maps that are filled from lists -/

theorem contains_insert {m : TextMap α} {key : String} {value : α} {other : String} :
    (m.insert key value).contains other = true ↔ other = key ∨ m.contains other = true := by
  rw [contains, contains, get?_insert]
  by_cases h : other = key <;> simp [h]

theorem contains_foldl_insert (key : String) (pairs : List (String × α)) :
    ∀ m : TextMap α,
      (pairs.foldl (fun m pair => m.insert pair.1 pair.2) m).contains key = true
        ↔ key ∈ pairs.map Prod.fst ∨ m.contains key = true := by
  induction pairs with
  | nil => simp
  | cons pair pairs ih =>
    intro m
    rw [List.foldl_cons, ih, contains_insert, List.map_cons, List.mem_cons, or_left_comm,
      or_assoc]

theorem mem_keys_ofList {key : String} {pairs : List (String × α)} :
    key ∈ (ofList pairs).keys ↔ key ∈ pairs.map Prod.fst := by
  have hempty : ¬ (empty : TextMap α).contains key = true := by simp [contains]
  rw [← contains_iff_mem_keys, ofList, contains_foldl_insert, or_iff_left hempty]

theorem map_insert {β : Type} (f : α → β) (m : TextMap α) (key : String) (value : α) :
    (m.insert key value).map (fun _ => f) = (m.map fun _ => f).insert key (f value) := by
  refine ext_get? fun other => ?_
  rw [get?_map, get?_insert, get?_insert, get?_map]
  split <;> rfl

/-- Values may be changed before a map is filled with them, or after. -/
theorem map_ofList {β : Type} (f : α → β) (pairs : List (String × α)) :
    (ofList pairs).map (fun _ => f) = ofList (pairs.map fun pair => (pair.1, f pair.2)) := by
  rw [ofList, ofList, List.foldl_map]
  exact (List.foldl_hom (fun m : TextMap α => m.map fun _ => f)
    fun m pair => (map_insert f m pair.1 pair.2).symm).symm

/-- New keys are put among the old ones. -/
theorem foldl_insert_perm {pairs : List (String × α)} :
    ∀ m : TextMap α, (pairs.map Prod.fst).Nodup → (∀ pair ∈ pairs, m.get? pair.1 = none) →
      (pairs.foldl (fun m pair => m.insert pair.1 pair.2) m).entries.Perm
        (pairs ++ m.entries) := by
  induction pairs with
  | nil => intro m _ _; exact .refl _
  | cons pair pairs ih =>
    intro m hnodup hnew
    obtain ⟨hpair, hnodup⟩ := List.nodup_cons.mp hnodup
    have hfirst : (m.insert pair.1 pair.2).entries.Perm (pair :: m.entries) :=
      insertEntry_perm (hnew pair List.mem_cons_self)
    have hrest : ∀ other ∈ pairs, (m.insert pair.1 pair.2).get? other.1 = none := by
      intro other hother
      rw [get?_insert_of_ne]
      · exact hnew other (List.mem_cons_of_mem _ hother)
      · exact fun heq => hpair (List.mem_map.mpr ⟨other, hother, heq⟩)
    rw [List.foldl_cons]
    exact (ih _ hnodup hrest).trans ((hfirst.append_left pairs).trans List.perm_middle)

theorem entries_ofList_perm {pairs : List (String × α)} (h : (pairs.map Prod.fst).Nodup) :
    (ofList pairs).entries.Perm pairs := by
  have hperm := foldl_insert_perm empty h fun _ _ => get?_empty _
  rwa [show (empty : TextMap α).entries = [] from rfl, List.append_nil] at hperm

/-- A map that is filled with the entries of a map is that map. -/
theorem ofList_entries (m : TextMap α) : ofList m.entries = m := by
  have hasymm : ∀ a b : String × α, a ∈ (ofList m.entries).entries → b ∈ m.entries →
      a.1 < b.1 → b.1 < a.1 → a = b :=
    fun a _ _ _ hab hba => absurd (String.lt_trans hab hba) (String.lt_irrefl a.1)
  exact ext ((entries_ofList_perm m.nodup_keys).eq_of_pairwise hasymm (ofList m.entries).sorted
    m.sorted)

/-! ## Sums over the values -/

theorem sum_insertEntry (f : α → Nat) {key : String} {value : α}
    (entries : List (String × α)) (sorted : entries.Pairwise fun a b => a.1 < b.1) :
    ((insertEntry key value entries).map fun entry => f entry.2).sum
        + ((valueOf? key entries).map f).getD 0
      = (entries.map fun entry => f entry.2).sum + f value := by
  induction entries with
  | nil => simp [insertEntry, valueOf?]
  | cons head rest ih =>
    obtain ⟨hhead, hrest⟩ := List.pairwise_cons.mp sorted
    rw [insertEntry]
    split
    · rename_i hlt
      rw [valueOf?_eq_none_of_lt_head hlt hhead]
      simp only [List.map_cons, List.sum_cons, Option.map_none, Option.getD_none]
      omega
    · split
      · rename_i heq
        simp only [valueOf?, heq, if_true, List.map_cons, List.sum_cons, Option.map_some,
          Option.getD_some]
        omega
      · rename_i hne
        have hsum := ih hrest
        simp only [valueOf?, hne, if_false, List.map_cons, List.sum_cons]
        omega

/-- An insertion changes a sum over the values by the new value, less the old one. -/
theorem sum_insert (f : α → Nat) (m : TextMap α) (key : String) (value : α) :
    ((m.insert key value).values.map f).sum + ((m.get? key).map f).getD 0
      = (m.values.map f).sum + f value := by
  simp only [values, List.map_map]
  exact sum_insertEntry f m.entries m.sorted

theorem sum_values (f : α → Nat) (m : TextMap α) :
    (m.values.map f).sum = (m.keys.map fun key => ((m.get? key).map f).getD 0).sum := by
  simp only [values, keys, List.map_map]
  refine congrArg List.sum (List.map_congr_left fun entry hentry => ?_)
  simp [get?_of_mem hentry]

/-- New keys, given their values one after the other, add their values. -/
theorem sum_foldl_insert (f : α → Nat) (value : String → α) {keys : List String}
    {m : TextMap α} (hnodup : keys.Nodup) (hnew : ∀ key ∈ keys, m.get? key = none) :
    ((keys.foldl (fun m key => m.insert key (value key)) m).values.map f).sum
      = (m.values.map f).sum + (keys.map fun key => f (value key)).sum := by
  have hkeys : ((keys.map fun key => (key, value key)).map Prod.fst).Nodup := by
    rwa [List.map_map, show Prod.fst ∘ (fun key => (key, value key)) = id from rfl, List.map_id]
  have hperm := foldl_insert_perm m hkeys (List.forall_mem_map.mpr hnew)
  rw [List.foldl_map] at hperm
  rw [values, ((hperm.map Prod.snd).map f).sum_eq, List.map_append, List.map_append,
    List.sum_append, Nat.add_comm]
  simp only [values, List.map_map]
  rfl

end CoverageRegistry.TextMap
