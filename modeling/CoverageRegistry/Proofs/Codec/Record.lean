import CoverageRegistry.Codec.Basic
import CoverageRegistry.Json.Printer
import CoverageRegistry.Proofs.TextMap

/-!
# Reading what was written

Writers and readers of JSON forms are put together from a few parts, and what one of them
writes another one reads back, also when the names in it have been sorted (`Reads`). The
members of an object are found by their names, in whatever order they stand, as long as no
two have the same (`record?_object`, `record?_arrange`); the items of an array are read
back when each of them is (`Reads.list`), and they can be written when each of them can
(`exists_mapM_iff`).
-/

namespace CoverageRegistry

/-! ## Sorted names -/

namespace Json

/-- A value as it is written, or with the names in it sorted. -/
def arrange (sorted : Bool) (value : Json) : Json :=
  if sorted then value.sortNames else value

@[simp] theorem arrange_string (sorted : Bool) (text : String) :
    (string text).arrange sorted = string text := by
  cases sorted <;> simp [arrange, sortNames]

@[simp] theorem arrange_nat (sorted : Bool) (n : Nat) : (nat n).arrange sorted = nat n := by
  cases sorted <;> simp [arrange, nat, sortNames]

theorem sortItems_eq_map (items : List Json) : sortItems items = items.map sortNames := by
  induction items with
  | nil => rfl
  | cons item items ih => rw [sortItems, ih, List.map_cons]

theorem sortMembers_eq_map (members : List (String × Json)) :
    sortMembers members = members.map fun member => (member.1, member.2.sortNames) := by
  induction members with
  | nil => rfl
  | cons member members ih => rw [sortMembers, ih, List.map_cons]

@[simp] theorem arrange_array (sorted : Bool) (items : List Json) :
    (array items).arrange sorted = array (items.map (arrange sorted)) := by
  cases sorted with
  | false =>
    have hid : arrange false = id := rfl
    rw [hid, List.map_id]
    rfl
  | true =>
    have hsort : arrange true = sortNames := rfl
    rw [hsort, sortNames, sortItems_eq_map]

/-- The members of an object, each with its value arranged. -/
def arrangeMembers (sorted : Bool) (members : List (String × Json)) : List (String × Json) :=
  members.map fun member => (member.1, member.2.arrange sorted)

@[simp] theorem arrangeMembers_false (members : List (String × Json)) :
    arrangeMembers false members = members :=
  List.map_id _

theorem arrangeMembers_true (members : List (String × Json)) :
    arrangeMembers true members = sortMembers members :=
  (sortMembers_eq_map members).symm

@[simp] theorem map_fst_arrangeMembers (sorted : Bool) (members : List (String × Json)) :
    (arrangeMembers sorted members).map Prod.fst = members.map Prod.fst := by
  rw [arrangeMembers, List.map_map]
  rfl

/-- Sorting puts the members of an object in another order, where no two have one name. -/
theorem exists_arrange_object (sorted : Bool) {members : List (String × Json)}
    (h : (members.map Prod.fst).Nodup) :
    ∃ members', (object members).arrange sorted = object members'
      ∧ members'.Perm (arrangeMembers sorted members) := by
  cases sorted with
  | false => exact ⟨members, rfl, by rw [arrangeMembers_false]⟩
  | true =>
    rw [← map_fst_arrangeMembers true, arrangeMembers_true] at h
    refine ⟨_, ?_, arrangeMembers_true members ▸ TextMap.entries_ofList_perm h⟩
    show (object members).sortNames = _
    rw [sortNames, arrangeMembers_true]

/-- Members that are in the order of their names stay in it. -/
theorem arrange_object_of_pairwise (sorted : Bool) {members : List (String × Json)}
    (h : members.Pairwise fun a b => a.1 < b.1) :
    (object members).arrange sorted = object (arrangeMembers sorted members) := by
  cases sorted with
  | false => rw [arrangeMembers_false]; rfl
  | true =>
    have hsorted : (arrangeMembers true members).Pairwise fun a b => a.1 < b.1 :=
      List.pairwise_map.mpr h
    have hfill := congrArg TextMap.entries (TextMap.ofList_entries ⟨_, hsorted⟩)
    show (object members).sortNames = _
    rw [sortNames, ← arrangeMembers_true]
    exact congrArg object hfill

end Json

/-! ## Members by name -/

namespace Codec

open Json

theorem valuesOf_of_mem {name : String} {value : Json} {members : List (String × Json)}
    (hnodup : (members.map Prod.fst).Nodup) (h : (name, value) ∈ members) :
    valuesOf name members = [value] := by
  induction members with
  | nil => cases h
  | cons member members ih =>
    obtain ⟨hfirst, hnodup⟩ := List.nodup_cons.mp hnodup
    rcases List.mem_cons.mp h with rfl | h
    · have hrest : (members.filter fun member => member.1 = name) = [] := by
        refine List.filter_eq_nil_iff.mpr fun other hother => ?_
        have hne : other.1 ≠ name := fun heq => hfirst (List.mem_map.mpr ⟨other, hother, heq⟩)
        simpa using hne
      simp [valuesOf, hrest]
    · have hne : member.1 ≠ name := fun heq => hfirst (List.mem_map.mpr ⟨_, h, heq.symm⟩)
      have hskip : valuesOf name (member :: members) = valuesOf name members := by
        simp [valuesOf, hne]
      rw [hskip, ih hnodup h]

theorem single?_of_mem {name : String} {value : Json} {members : List (String × Json)}
    (hnodup : (members.map Prod.fst).Nodup) (h : (name, value) ∈ members) :
    single? name members = some (some value) := by
  rw [single?, valuesOf_of_mem hnodup h]

/-- Fields are found wherever they stand among members with names of their own. -/
theorem record?_object {fields members : List (String × Json)}
    (hnodup : (members.map Prod.fst).Nodup) (h : fields ⊆ members) :
    record? (fields.map Prod.fst) (.object members)
      = some (fields.map fun field => some field.2) := by
  show (fields.map Prod.fst).mapM (fun name => single? name members) = _
  induction fields with
  | nil => rfl
  | cons field fields ih =>
    obtain ⟨hfield, hfields⟩ := List.cons_subset.mp h
    rw [List.map_cons, List.mapM_cons, single?_of_mem hnodup hfield, ih hfields]
    rfl

/-- Some fields of an object are found among its arranged members. -/
theorem record?_of_perm {sorted : Bool} {names : List String}
    {fields members members' : List (String × Json)} (hnames : names = fields.map Prod.fst)
    (hfields : fields ⊆ members) (hnodup : (members.map Prod.fst).Nodup)
    (hperm : members'.Perm (arrangeMembers sorted members)) :
    record? names (.object members')
      = some (fields.map fun field => some (field.2.arrange sorted)) := by
  have hnodup : (members'.map Prod.fst).Nodup := by
    rw [(hperm.map Prod.fst).nodup_iff, map_fst_arrangeMembers]
    exact hnodup
  have hmembers : arrangeMembers sorted fields ⊆ members' := by
    intro member hmember
    obtain ⟨field, hfield, rfl⟩ := List.mem_map.mp hmember
    exact hperm.mem_iff.mpr (List.mem_map.mpr ⟨field, hfields hfield, rfl⟩)
  have hfound := record?_object hnodup hmembers
  rw [map_fst_arrangeMembers, ← hnames] at hfound
  rw [hfound, arrangeMembers, List.map_map]
  rfl

theorem record?_arrange (sorted : Bool) {names : List String} {fields : List (String × Json)}
    (hnames : names = fields.map Prod.fst) (hnodup : names.Nodup) :
    record? names ((object fields).arrange sorted)
      = some (fields.map fun field => some (field.2.arrange sorted)) := by
  rw [hnames] at hnodup
  obtain ⟨members, hobject, hperm⟩ := exists_arrange_object sorted hnodup
  rw [hobject, record?_of_perm hnames (List.Subset.refl _) hnodup hperm]

/-! ## Values that are read back -/

variable {α β : Type}

theorem mapM_eq_some_iff {f : α → Option β} {xs : List α} {ys : List β} :
    xs.mapM f = some ys ↔ List.Forall₂ (fun x y => f x = some y) xs ys := by
  induction xs generalizing ys with
  | nil => simp [eq_comm]
  | cons x xs ih =>
    simp only [List.mapM_cons, bind, Option.bind_eq_some_iff, pure, Option.some.injEq,
      List.forall₂_cons_left_iff, ih]
    constructor
    · rintro ⟨y, hy, ys, hys, rfl⟩
      exact ⟨y, ys, hy, hys, rfl⟩
    · rintro ⟨y, ys, hy, hys, rfl⟩
      exact ⟨y, hy, ys, hys, rfl⟩

theorem exists_mapM_iff {f : α → Option β} {xs : List α} :
    (∃ ys, xs.mapM f = some ys) ↔ ∀ x ∈ xs, ∃ y, f x = some y := by
  induction xs with
  | nil => simp
  | cons x xs ih =>
    rw [List.forall_mem_cons, ← ih]
    simp only [List.mapM_cons, bind, Option.bind_eq_some_iff, pure, Option.some.injEq]
    constructor
    · rintro ⟨_, y, hy, ys, hys, rfl⟩
      exact ⟨⟨y, hy⟩, ys, hys⟩
    · rintro ⟨⟨y, hy⟩, ys, hys⟩
      exact ⟨_, y, hy, ys, hys, rfl⟩

/-- A reader gets something from a value, whether or not the names in it are sorted. -/
def Reads (read : Json → Option α) (value : Json) (x : α) : Prop :=
  ∀ sorted, read (value.arrange sorted) = some x

/-- The values that a record gives are the forms of its fields. -/
theorem Reads.record {names : List String} {fields : List (String × Json)}
    {build : List (Option Json) → Option α} {x : α} (hnames : names = fields.map Prod.fst)
    (hnodup : names.Nodup)
    (h : ∀ sorted, build (fields.map fun field => some (field.2.arrange sorted)) = some x) :
    Reads (fun value => (record? names value).bind build) (.object fields) x := by
  intro sorted
  show (record? names _).bind build = some x
  rw [record?_arrange sorted hnames hnodup]
  exact h sorted

theorem Reads.required {read : Json → Option α} {value : Json} {x : α}
    (h : Reads read value x) (sorted : Bool) :
    required read (some (value.arrange sorted)) = some x :=
  h sorted

theorem Reads.list {read : Json → Option α} {values : List Json} {xs : List α}
    (h : List.Forall₂ (Reads read) values xs) : Reads (list? read) (.array values) xs := by
  intro sorted
  have hitems : (values.map (arrange sorted)).mapM read = some xs := by
    rw [mapM_eq_some_iff, List.forall₂_map_left_iff]
    exact h.imp fun _ _ hread => hread sorted
  rw [arrange_array]
  exact hitems

theorem Reads.string (text : String) : Reads Json.text? (.string text) text := by
  intro sorted
  rw [arrange_string, Json.text?]

/-- A variant is read by its name, where no two have the same. -/
theorem Reads.choice {name : α → String} {variants : List α}
    (hinj : ∀ x ∈ variants, ∀ y ∈ variants, name x = name y → x = y) {x : α}
    (hx : x ∈ variants) : Reads (choice? name variants) (.string (name x)) x := by
  intro sorted
  rw [arrange_string]
  show variants.find? (fun variant => name variant = name x) = some x
  cases hfound : variants.find? fun variant => name variant = name x with
  | none => simpa using List.find?_eq_none.mp hfound x hx
  | some y =>
    have hname : name y = name x := by simpa using List.find?_some hfound
    rw [hinj y (List.mem_of_find?_eq_some hfound) x hx hname]

theorem Reads.word {n : Nat} (h : n < UInt64.size) : Reads Json.word? (.nat n) n := by
  intro sorted
  rw [arrange_nat]
  exact if_pos h

end Codec

end CoverageRegistry
