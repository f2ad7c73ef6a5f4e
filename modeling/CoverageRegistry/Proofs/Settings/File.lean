import CoverageRegistry.Proofs.Path.List
import CoverageRegistry.Proofs.TextMap
import CoverageRegistry.Settings

/-!
# Settings files

A file writes a property as a text or as an array of texts, and an array is kept as its
items joined by commas. Nothing is lost by it: a comma ends an entry wherever it stands, so
what is read from the kept text are the entries of the items, one after the other
(`Value.entries_raw`). So the settings are the file's table with every value kept as a text
(`Describes.ofToml_eq`), and a file may write the joined text itself instead of an array
(`ofToml_of_describes`).
-/

namespace CoverageRegistry.Settings

/-! ## Values -/

/-- The entries that a value lists: those of its text, or those of its items in order. -/
def Value.entries : Value → List String
  | one text => PathList.entries text
  | many texts => texts.flatMap PathList.entries

theorem Value.entries_raw (value : Value) : PathList.entries value.raw = value.entries := by
  cases value with
  | one text => rfl
  | many texts => exact PathList.entries_join texts

/-- The same table, but with the joined text in the place of some of its arrays. -/
def Joins (properties properties' : TextMap Value) : Prop :=
  ∀ key, properties'.get? key = properties.get? key
    ∨ ∃ texts, properties.get? key = some (.many texts)
      ∧ properties'.get? key = some (.one (PathList.join texts))

variable {properties properties' : TextMap Value}

theorem Joins.map_raw_eq (h : Joins properties properties') :
    properties'.map (fun _ => Value.raw) = properties.map fun _ => Value.raw := by
  refine TextMap.ext_get? fun key => ?_
  rw [TextMap.get?_map, TextMap.get?_map]
  rcases h key with hsame | ⟨texts, hmany, hone⟩
  · rw [hsame]
  · rw [hmany, hone]
    rfl

/-! ## Documents -/

/-- A text that is read as a table of properties. -/
def Describes (text : String) (properties : TextMap Value) : Prop :=
  ∃ document listed, Toml.parse text = .ok document ∧ listed? document = some listed
    ∧ TextMap.ofList listed = properties

theorem describes_iff {text : String} :
    Describes text properties
      ↔ ((Toml.parse text).toOption.bind listed?).map TextMap.ofList = some properties := by
  rw [Describes]
  cases Toml.parse text <;> simp [Except.toOption]

/-- A key that is blank refuses the file. -/
def HasBlankKey (properties : TextMap Value) : Prop :=
  ∃ key ∈ properties.keys, Text.trim key = ""

instance (properties : TextMap Value) : Decidable (HasBlankKey properties) :=
  inferInstanceAs (Decidable (∃ key ∈ properties.keys, Text.trim key = ""))

/-- The same keys are blank, whether their values are arrays or texts. -/
theorem hasBlankKey_iff_of_map_raw_eq
    (h : properties'.map (fun _ => Value.raw) = properties.map fun _ => Value.raw) :
    HasBlankKey properties' ↔ HasBlankKey properties := by
  have hkeys : ∀ m : TextMap Value, (m.map fun _ => Value.raw).keys = m.keys := by
    intro m
    simp [TextMap.keys, TextMap.map]
  rw [HasBlankKey, HasBlankKey, ← hkeys properties', ← hkeys properties, h]

theorem any_allBlank_iff (listed : List (String × Value)) :
    (listed.any fun property => Text.allBlank property.1) = true
      ↔ HasBlankKey (TextMap.ofList listed) := by
  simp only [HasBlankKey, TextMap.mem_keys_ofList, Text.trim_eq_empty_iff, List.any_eq_true,
    List.mem_map]
  constructor
  · rintro ⟨property, hproperty, hblank⟩
    exact ⟨property.1, ⟨property, hproperty, rfl⟩, hblank⟩
  · rintro ⟨key, ⟨property, hproperty, rfl⟩, hblank⟩
    exact ⟨property, hproperty, hblank⟩

/-- The settings of a file are its table, with every value kept as a text. -/
theorem Describes.ofToml_eq {text : String} (h : Describes text properties) :
    ofToml text
      = if HasBlankKey properties then .error (.config .blankPropertyKey)
        else .ok ⟨properties.map fun _ => Value.raw⟩ := by
  obtain ⟨document, listed, hparse, hlisted, rfl⟩ := h
  simp only [ofToml, hparse, Except.mapError, bind, Except.bind, hlisted, ofFile,
    any_allBlank_iff, ofPairs, TextMap.map_ofList]

/-- **Settings files.** Let a text be read as a table of properties. It is refused exactly
when a key is blank, and then for that. The settings of a text that is not refused have
the keys of the table and no others; a property that is written as a text has that text,
and one that is written as an array lists the entries of its items, item by item in their
order. A text that writes arrays as their items joined by commas gives the same settings, or
the same error. -/
theorem ofToml_of_describes {text : String} {properties : TextMap Value}
    (h : Describes text properties) :
    ((∃ error, ofToml text = .error error) ↔ ∃ key ∈ properties.keys, Text.trim key = "")
      ∧ (∀ error, ofToml text = .error error → error = .config .blankPropertyKey)
      ∧ (∀ settings, ofToml text = .ok settings →
        (∀ key, settings.hasKey key = true ↔ key ∈ properties.keys)
        ∧ (∀ key value, properties.get? key = some (.one value) →
          settings.get? key = some value)
        ∧ ∀ key values, properties.get? key = some (.many values) →
          settings.list key = values.flatMap PathList.entries)
      ∧ ∀ (text' : String) (properties' : TextMap Value), Describes text' properties' →
        Joins properties properties' → ofToml text' = ofToml text := by
  have heq := h.ofToml_eq
  refine ⟨?_, ?_, ?_, ?_⟩
  · rw [heq]
    by_cases hblank : HasBlankKey properties
    · rw [if_pos hblank]
      exact iff_of_true ⟨_, rfl⟩ hblank
    · rw [if_neg hblank]
      refine iff_of_false ?_ hblank
      rintro ⟨error, herror⟩
      cases herror
  · intro error herror
    rw [heq] at herror
    split at herror
    · exact (Except.error.inj herror).symm
    · cases herror
  · intro settings hok
    rw [heq] at hok
    split at hok
    · cases hok
    obtain rfl := Except.ok.inj hok
    refine ⟨fun key => ?_, fun key value hvalue => ?_, fun key values hvalues => ?_⟩
    · rw [hasKey, TextMap.contains, TextMap.get?_map, Option.isSome_map]
      exact TextMap.contains_iff_mem_keys
    · rw [get?, TextMap.get?_map, hvalue]
      rfl
    · rw [list, get?, TextMap.get?_map, hvalues]
      exact Value.entries_raw (.many values)
  · intro text' properties' h' hjoins
    have hraw := hjoins.map_raw_eq
    simp only [heq, h'.ofToml_eq, hraw, hasBlankKey_iff_of_map_raw_eq hraw]

/-- An array with blank items and commas inside its items, an array without items, and
their joined texts. -/
theorem ofToml_of_describes_commas :
    let text := "[properties]\nk = [\" a.xml,\", \"\", \"b.xml,,c d.xml \", \" \"]\nnone = []\n"
    let text' := "[properties]\nnone = \"\"\nk = \" a.xml,,,b.xml,,c d.xml , \"\n"
    let properties : TextMap Value :=
      .ofList [("k", .many [" a.xml,", "", "b.xml,,c d.xml ", " "]), ("none", .many [])]
    let properties' : TextMap Value :=
      .ofList [("k", .one " a.xml,,,b.xml,,c d.xml , "), ("none", .one "")]
    Describes text properties ∧ Describes text' properties'
      ∧ ∃ settings, ofToml text = .ok settings ∧ ofToml text' = .ok settings
        ∧ settings.list "k" = ["a.xml", "b.xml", "c d.xml"] ∧ settings.list "none" = [] := by
  intro text text' properties properties'
  have h : Describes text properties := describes_iff.mpr (by decide +kernel)
  have h' : Describes text' properties' := describes_iff.mpr (by decide +kernel)
  have hjoins : Joins properties properties' := by
    intro key
    by_cases hk : key = "k"
    · subst hk
      exact .inr ⟨[" a.xml,", "", "b.xml,,c d.xml ", " "], by decide +kernel, by decide +kernel⟩
    by_cases hnone : key = "none"
    · subst hnone
      exact .inr ⟨[], by decide +kernel, by decide +kernel⟩
    · left
      simp [properties, properties', TextMap.ofList, TextMap.get?_insert, hk, hnone]
  have hkeys : ¬ HasBlankKey properties := by decide +kernel
  obtain ⟨hrefused, -, hread, hsame⟩ := ofToml_of_describes h
  cases hok : ofToml text with
  | error error => exact absurd (hrefused.mp ⟨error, hok⟩) hkeys
  | ok settings =>
    obtain ⟨-, -, hlist⟩ := hread settings hok
    refine ⟨h, h', settings, rfl, (hsame text' properties' h' hjoins).trans hok, ?_, ?_⟩
    · rw [hlist "k" [" a.xml,", "", "b.xml,,c d.xml ", " "] (by decide +kernel)]
      decide +kernel
    · rw [hlist "none" [] (by decide +kernel)]
      rfl

end CoverageRegistry.Settings
