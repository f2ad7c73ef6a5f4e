import CoverageRegistry.Language.File
import CoverageRegistry.Proofs.Text.Blank
import CoverageRegistry.Proofs.TextMap

/-!
# Tables of languages

A table is filled by registering languages one after the other, from code or from a
languages file. A well-formed language with a new key is registered
(`register_eq_ok_iff_isWellFormed`), and any other is refused for the first of three
reasons (`register_eq_error_iff`). So every key of a filled table is made of lower-case
ASCII letters and digits (`Filled.hasKeys`).
-/

namespace CoverageRegistry

/-- A key of a language: not empty, and made of lower-case ASCII letters and digits. -/
structure IsLanguageKey (key : String) : Prop where
  ne_empty : key ≠ ""
  chars : ∀ c ∈ key.toList, 'a' ≤ c ∧ c ≤ 'z' ∨ '0' ≤ c ∧ c ≤ '9'

theorem isLanguageKey_iff {key : String} : isLanguageKey key = true ↔ IsLanguageKey key := by
  have hchar : ∀ c : Char, (c.isLower || c.isDigit) = true
      ↔ 'a' ≤ c ∧ c ≤ 'z' ∨ '0' ≤ c ∧ c ≤ '9' := by
    intro c
    have hlower : c.isLower = (decide ('a' ≤ c) && decide (c ≤ 'z')) := rfl
    have hdigit : c.isDigit = (decide ('0' ≤ c) && decide (c ≤ '9')) := rfl
    simp [hlower, hdigit]
  have hempty : (!key.toList.isEmpty) = true ↔ key ≠ "" := by simp
  rw [isLanguageKey, Bool.and_eq_true, List.all_eq_true, hempty]
  simp only [hchar]
  exact ⟨fun h => ⟨h.1, h.2⟩, fun h => ⟨h.ne_empty, h.chars⟩⟩

namespace LanguageInfo

/-- A language that can be registered wherever its key is free. -/
structure IsWellFormed (info : LanguageInfo) : Prop where
  isLanguageKey : IsLanguageKey info.key
  name_ne_blank : Text.trim info.name ≠ ""

theorem isWellFormed_iff {info : LanguageInfo} :
    info.IsWellFormed
      ↔ CoverageRegistry.isLanguageKey info.key = true ∧ Text.allBlank info.name = false := by
  rw [isLanguageKey_iff, ← Bool.not_eq_true, ← Text.trim_eq_empty_iff]
  exact ⟨fun h => ⟨h.isLanguageKey, h.name_ne_blank⟩, fun h => ⟨h.1, h.2⟩⟩

instance (info : LanguageInfo) : Decidable info.IsWellFormed :=
  decidable_of_iff' _ isWellFormed_iff

/-- Why a language is refused where some keys are taken: its key is looked at first, then
its name, and only then whether the key is taken. -/
inductive Refused (taken : String → Prop) (info : LanguageInfo) : ConfigError → Prop
  | key (hkey : ¬ IsLanguageKey info.key) : Refused taken info (.invalidLanguageKey info.key)
  | name (hkey : IsLanguageKey info.key) (hname : Text.trim info.name = "") :
      Refused taken info (.blankLanguageName info.key)
  | again (hinfo : info.IsWellFormed) (htaken : taken info.key) :
      Refused taken info (.duplicateLanguage info.key)

theorem Refused.mono {taken taken' : String → Prop} {info : LanguageInfo}
    {fault : ConfigError} (h : info.Refused taken fault)
    (hkeys : ∀ key, taken key → taken' key) : info.Refused taken' fault := by
  cases h with
  | key hkey => exact .key hkey
  | name hkey hname => exact .name hkey hname
  | again hinfo htaken => exact .again hinfo (hkeys _ htaken)

/-- What is refused is not well formed, or its key is taken. -/
theorem Refused.not_isWellFormed_or {taken : String → Prop} {info : LanguageInfo}
    {fault : ConfigError} (h : info.Refused taken fault) :
    ¬ info.IsWellFormed ∨ taken info.key := by
  cases h with
  | key hkey => exact .inl fun hinfo => hkey hinfo.isLanguageKey
  | name _ hname => exact .inl fun hinfo => hinfo.name_ne_blank hname
  | again _ htaken => exact .inr htaken

end LanguageInfo

namespace LanguageTable

variable {table table' : LanguageTable}

theorem contains_insert {info : LanguageInfo} {key : String} :
    (table.insert info).contains key = true
      ↔ key = info.key ∨ table.contains key = true :=
  TextMap.contains_insert

/-- When a registration succeeds, and what it makes of the table. -/
theorem register_eq_ok_iff {info : LanguageInfo} :
    table.register info = .ok table'
      ↔ isLanguageKey info.key = true ∧ Text.allBlank info.name = false
        ∧ table.contains info.key = false ∧ table' = table.insert info := by
  unfold register
  cases isLanguageKey info.key with
  | false => simp
  | true =>
    cases Text.allBlank info.name with
    | true => simp
    | false =>
      cases table.contains info.key with
      | true => simp
      | false => simp [eq_comm]

theorem register_eq_ok_iff_isWellFormed {info : LanguageInfo} :
    table.register info = .ok table'
      ↔ info.IsWellFormed ∧ table.contains info.key = false ∧ table' = table.insert info := by
  rw [register_eq_ok_iff, LanguageInfo.isWellFormed_iff, and_assoc]

theorem register_eq_error_iff {info : LanguageInfo} {error : RegistryError} :
    table.register info = .error error
      ↔ ∃ fault, error = .config fault
        ∧ info.Refused (fun key => table.contains key = true) fault := by
  constructor
  · intro h
    unfold register at h
    split at h
    · rename_i hkey
      refine ⟨_, (Except.error.inj h).symm, .key ?_⟩
      rw [← isLanguageKey_iff]
      simpa using hkey
    · rename_i hkey
      have hkey : IsLanguageKey info.key := isLanguageKey_iff.mp (by simpa using hkey)
      split at h
      · rename_i hname
        exact ⟨_, (Except.error.inj h).symm, .name hkey (Text.trim_eq_empty_iff.mpr hname)⟩
      · rename_i hname
        rw [← Text.trim_eq_empty_iff] at hname
        split at h
        · rename_i htaken
          exact ⟨_, (Except.error.inj h).symm, .again ⟨hkey, hname⟩ htaken⟩
        · cases h
  · rintro ⟨fault, rfl, hrefused⟩
    cases hrefused with
    | key hkey => simp [register, isLanguageKey_iff, hkey]
    | name hkey hname =>
      simp [register, isLanguageKey_iff, hkey, Text.trim_eq_empty_iff.mp hname]
    | again hinfo htaken =>
      have hchecks := LanguageInfo.isWellFormed_iff.mp hinfo
      simp [register, hchecks.1, hchecks.2, htaken]

/-- Every key of the table passes the check of keys. -/
def HasKeys (table : LanguageTable) : Prop :=
  ∀ key, table.contains key = true → isLanguageKey key = true

theorem hasKeys_empty : empty.HasKeys := by
  intro key h
  cases h

theorem HasKeys.register (h : table.HasKeys) {info : LanguageInfo}
    (hinfo : table.register info = .ok table') : table'.HasKeys := by
  obtain ⟨hkey, -, -, rfl⟩ := register_eq_ok_iff.mp hinfo
  intro key hmem
  rcases contains_insert.mp hmem with rfl | hmem
  · exact hkey
  · exact h key hmem

theorem HasKeys.foldlM_register {infos : List LanguageInfo} :
    ∀ {table : LanguageTable}, table.HasKeys →
      infos.foldlM LanguageTable.register table = .ok table' → table'.HasKeys := by
  induction infos with
  | nil =>
    intro table h hrun
    obtain rfl : table = table' := Except.ok.inj hrun
    exact h
  | cons info infos ih =>
    intro table h hrun
    rw [List.foldlM_cons] at hrun
    cases hinfo : table.register info with
    | error error => rw [hinfo] at hrun; cases hrun
    | ok next =>
      rw [hinfo] at hrun
      exact ih (h.register hinfo) hrun

/-- A table read from a text has its languages registered in order. -/
theorem exists_foldlM_of_ofToml {text : String} (h : ofToml text = .ok table) :
    ∃ infos : List LanguageInfo, infos.foldlM register empty = .ok table := by
  unfold ofToml at h
  cases hparse : (Toml.parse text).mapError RegistryError.toml with
  | error error => rw [hparse] at h; cases h
  | ok document =>
    simp only [hparse, bind, Except.bind] at h
    cases hinfos : listed? document with
    | none => rw [hinfos] at h; cases h
    | some infos =>
      rw [hinfos] at h
      simp only [ofList] at h
      split at h
      · cases h
      · exact ⟨infos, h⟩

/-- The tables that can be made: the empty one and the built-in one, those read from a
text, and what a registration makes of any of them. -/
inductive Filled : LanguageTable → Prop
  | empty : Filled .empty
  | builtin : Filled .builtin
  | ofToml {text : String} {table : LanguageTable} (h : ofToml text = .ok table) :
      Filled table
  | register {table table' : LanguageTable} {info : LanguageInfo} (ht : Filled table)
      (h : table.register info = .ok table') : Filled table'

theorem Filled.hasKeys (h : table.Filled) : table.HasKeys := by
  induction h with
  | empty => exact hasKeys_empty
  | builtin =>
    intro key h
    rcases contains_insert.mp h with rfl | h
    · decide
    · rcases contains_insert.mp h with rfl | h
      · decide
      · exact hasKeys_empty key h
  | ofToml h =>
    obtain ⟨infos, hrun⟩ := exists_foldlM_of_ofToml h
    exact hasKeys_empty.foldlM_register hrun
  | register _ hinfo ih => exact ih.register hinfo

end LanguageTable

end CoverageRegistry
