import CoverageRegistry.Language.Table

/-!
# Looking up a language

All answers of a table about a key follow from whether the key is registered: where it is,
the language, its configurations and its property keys are found, and otherwise each of
them is refused.
-/

namespace CoverageRegistry.LanguageTable

variable {table : LanguageTable} {key : String}

theorem language_of_contains (h : table.contains key = true) :
    ∃ name, table.language key = .ok ⟨key, name⟩ := by
  obtain ⟨name, hname⟩ := Option.isSome_iff_exists.mp h
  exact ⟨name, by simp [language, hname]⟩

theorem language_of_not_contains (h : table.contains key = false) :
    table.language key = .error (.unknownLanguage key) := by
  have hnone : table.names.get? key = none := by
    simpa [contains, TextMap.contains] using h
  simp [language, hnone]

/-- A language that is found is registered, under its own key. -/
theorem contains_of_language {info : LanguageInfo} (h : table.language key = .ok info) :
    table.contains key = true ∧ info.key = key := by
  unfold language at h
  cases hname : table.names.get? key with
  | none => rw [hname] at h; cases h
  | some name =>
    rw [hname] at h
    cases h
    exact ⟨by simp [contains, TextMap.contains, hname], rfl⟩

theorem configuration_of_contains (h : table.contains key = true) (scope : TestScope) :
    table.configuration key scope = .ok ⟨key, scope⟩ := by
  obtain ⟨name, hname⟩ := language_of_contains h
  rw [configuration, hname]
  rfl

theorem configuration_of_not_contains (h : table.contains key = false)
    (scope : TestScope) :
    table.configuration key scope = .error (.unknownLanguage key) := by
  rw [configuration, language_of_not_contains h]
  rfl

theorem resolveKeys_of_contains (h : table.contains key = true) (scope : TestScope) :
    table.resolveKeys key scope = .ok (.derive key scope) := by
  rw [resolveKeys, configuration_of_contains h]
  rfl

theorem resolveKeys_of_not_contains (h : table.contains key = false) (scope : TestScope) :
    table.resolveKeys key scope = .error (.unknownLanguage key) := by
  rw [resolveKeys, configuration_of_not_contains h]
  rfl

end CoverageRegistry.LanguageTable
