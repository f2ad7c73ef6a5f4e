import CoverageRegistry.Path.List
import CoverageRegistry.Proofs.Path.Segments
import CoverageRegistry.Proofs.Text.Blank

/-!
# Entries between commas

A comma ends an entry wherever it stands, so the entries of two texts with a comma between
them are the entries of the one and then those of the other (`entries_append_comma`). What
is read are items, texts that a list can hold (`isItem_of_mem_entries`), and a list of
items that is written as one text is read back (`entries_join_of_items`): reading once is
as good as reading, writing and reading again.
-/

namespace CoverageRegistry.PathList

/-- A text that stands for itself in a list: it is not empty, has no comma in it, and
neither starts nor ends with a blank. -/
structure IsItem (text : String) : Prop where
  ne_empty : text ≠ ""
  no_comma : ',' ∉ text.toList
  head_not_blank : ∀ c ∈ text.toList.head?, Text.isBlank c = false
  last_not_blank : ∀ c ∈ text.toList.getLast?, Text.isBlank c = false

theorem IsItem.trimList_eq {text : String} (h : IsItem text) :
    Text.trimList text.toList = text.toList :=
  Text.trimList_eq_self_iff.mpr ⟨h.head_not_blank, h.last_not_blank⟩

/-! ## Reading -/

/-- Reading goes on after a comma as if a text began there. -/
theorem entries_append_comma (front rest : String) :
    entries (front ++ "," ++ rest) = entries front ++ entries rest := by
  have hchars : (front ++ "," ++ rest).toList = front.toList ++ ',' :: rest.toList := by
    simp
  rw [entries, hchars, entriesOf, List.splitOn_append_cons_self, List.map_append,
    List.filter_append, List.map_append]
  rfl

/-- A text without commas has one entry, or none where it is blank. -/
theorem entriesOf_of_notMem {cs : List Char} (h : ',' ∉ cs) :
    entriesOf cs = if Text.trimList cs = [] then [] else [Text.trimList cs] := by
  rw [entriesOf, List.splitOn_eq_singleton h, List.map_singleton]
  cases Text.trimList cs <;> rfl

theorem entries_of_isItem {text : String} (h : IsItem text) : entries text = [text] := by
  have hne : text.toList ≠ [] := by
    intro hnil
    exact h.ne_empty (String.toList_inj.mp hnil)
  rw [entries, entriesOf_of_notMem h.no_comma, h.trimList_eq, if_neg hne, List.map_singleton,
    String.ofList_toList]

/-- What is read is an item: trimming a piece brings in no comma. -/
theorem isItem_of_mem_entries {value text : String} (h : text ∈ entries value) :
    IsItem text := by
  obtain ⟨cs, hcs, rfl⟩ := List.mem_map.mp h
  obtain ⟨hpiece, hne⟩ := List.mem_filter.mp hcs
  obtain ⟨piece, hmem, rfl⟩ := List.mem_map.mp hpiece
  obtain ⟨hhead, hlast⟩ := Text.trimList_eq_self_iff.mp (Text.trimList_trimList piece)
  refine ⟨?_, ?_, ?_, ?_⟩
  · simpa [← String.toList_inj] using hne
  · rw [String.toList_ofList]
    intro hcomma
    exact notMem_of_mem_splitOn hmem ((Text.trimList_sublist piece).subset hcomma)
  · rwa [String.toList_ofList]
  · rwa [String.toList_ofList]

/-! ## Writing and reading back -/

/-- The entries of a list that is written as one text are those of its texts. -/
theorem entries_join (texts : List String) :
    entries (join texts) = texts.flatMap entries := by
  induction texts with
  | nil => rfl
  | cons text texts ih =>
    cases texts with
    | nil => simp [join, String.intercalate_singleton]
    | cons next texts =>
      have hjoin : join (text :: next :: texts) = text ++ "," ++ join (next :: texts) :=
        String.intercalate_cons_cons
      rw [hjoin, entries_append_comma, List.flatMap_cons, ih]

theorem entries_join_of_items {items : List String} (h : ∀ item ∈ items, IsItem item) :
    entries (join items) = items := by
  rw [entries_join]
  induction items with
  | nil => rfl
  | cons item items ih =>
    rw [List.flatMap_cons, entries_of_isItem (h item List.mem_cons_self),
      ih fun other hother => h other (List.mem_cons_of_mem _ hother), List.singleton_append]

/-- **Reading a list of paths.** A comma separates what is read before it from what is read
after it; what is read are items; and items are read back from the text that they are
written as, so what was read once is read again after writing it. -/
theorem entries_laws :
    (∀ front rest : String, entries (front ++ "," ++ rest) = entries front ++ entries rest)
      ∧ (∀ value : String, ∀ entry ∈ entries value, IsItem entry)
      ∧ (∀ items : List String, (∀ item ∈ items, IsItem item) → entries (join items) = items)
      ∧ ∀ value : String, entries (join (entries value)) = entries value := by
  refine ⟨entries_append_comma, ?_, ?_, ?_⟩
  · intro value entry hentry
    exact isItem_of_mem_entries hentry
  · intro items hitems
    exact entries_join_of_items hitems
  · intro value
    exact entries_join_of_items fun _ => isItem_of_mem_entries

/-- Commas in a row, a blank entry between them, and wide blanks at both ends. -/
theorem entries_laws_wide_blanks :
    let value := ",\u3000a b.xml\u0085,, \u2003,c d\u00A0,"
    let items := ["a b.xml", "c d"]
    entries value = items ∧ (∀ item ∈ items, IsItem item) ∧ entries (join items) = items := by
  intro value items
  have hread : entries value = items := by decide +kernel
  obtain ⟨-, hitem, hback, -⟩ := entries_laws
  have hitems : ∀ item ∈ items, IsItem item := hread ▸ hitem value
  exact ⟨hread, hitems, hback items hitems⟩

end CoverageRegistry.PathList
