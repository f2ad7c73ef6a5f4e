import CoverageRegistry.Proofs.Language.Lookup
import CoverageRegistry.Proofs.Language.Registration
import CoverageRegistry.Proofs.TextMap

/-!
# A table under calls

A table is changed in place by calls that register languages, of which some are refused.
The log of such a history is the list of all languages that were offered, refused or not.
A table answers from the log alone: a key is registered when some well-formed language of
the log has it, and then with the first of them (`Holds.call` for one call,
`Holds.afterCalls` for all). `calls_invariant` says what follows for the next call and for
every way to look something up.
-/

namespace CoverageRegistry.LanguageTable

variable {table : LanguageTable} {info : LanguageInfo} {key : String}
variable {log : List LanguageInfo}

/-! ## What a table answers -/

/-- Two tables answer alike about a key. -/
structure AgreeAt (table other : LanguageTable) (key : String) : Prop where
  contains : table.contains key = other.contains key
  language : table.language key = other.language key
  configuration (scope : TestScope) :
    table.configuration key scope = other.configuration key scope
  resolveKeys (scope : TestScope) : table.resolveKeys key scope = other.resolveKeys key scope

theorem contains_eq_isOk : table.contains key = (table.language key).isOk := by
  cases hcontains : table.contains key with
  | true =>
    obtain ⟨name, hname⟩ := language_of_contains hcontains
    rw [hname]
    rfl
  | false =>
    rw [language_of_not_contains hcontains]
    rfl

/-- The language that is found decides every other answer about its key. -/
theorem AgreeAt.of_language {other : LanguageTable}
    (h : table.language key = other.language key) : table.AgreeAt other key := by
  have hconfiguration : ∀ scope,
      table.configuration key scope = other.configuration key scope := by
    intro scope
    rw [LanguageTable.configuration, LanguageTable.configuration, h]
  refine ⟨?_, h, hconfiguration, ?_⟩
  · rw [contains_eq_isOk, contains_eq_isOk, h]
  · intro scope
    rw [LanguageTable.resolveKeys, LanguageTable.resolveKeys, hconfiguration]

theorem contains_iff_exists_language :
    table.contains key = true ↔ ∃ info, table.language key = .ok info := by
  constructor
  · intro h
    obtain ⟨name, hname⟩ := language_of_contains h
    exact ⟨_, hname⟩
  · rintro ⟨info, hinfo⟩
    exact (contains_of_language hinfo).1

theorem configuration_eq_ok_iff {scope : TestScope} {configuration : CoverageConfiguration} :
    table.configuration key scope = .ok configuration
      ↔ table.contains key = true ∧ configuration = ⟨key, scope⟩ := by
  cases hcontains : table.contains key with
  | true => simp [configuration_of_contains hcontains, eq_comm]
  | false => simp [configuration_of_not_contains hcontains]

theorem resolveKeys_eq_ok_iff {scope : TestScope} {keys : CoverageKeys} :
    table.resolveKeys key scope = .ok keys
      ↔ table.contains key = true ∧ keys = .derive key scope := by
  cases hcontains : table.contains key with
  | true => simp [resolveKeys_of_contains hcontains, eq_comm]
  | false => simp [resolveKeys_of_not_contains hcontains]

/-! ## The languages of a table -/

theorem infos_increasing (table : LanguageTable) :
    table.infos.Pairwise fun a b => a.key < b.key :=
  List.pairwise_map.mpr table.names.sorted

theorem mem_infos_iff : info ∈ table.infos ↔ table.language info.key = .ok info := by
  constructor
  · intro h
    obtain ⟨entry, hentry, rfl⟩ := List.mem_map.mp h
    simp [language, TextMap.get?_of_mem hentry]
  · intro h
    unfold language at h
    cases hname : table.names.get? info.key with
    | none => rw [hname] at h; cases h
    | some name =>
      rw [hname, Except.ok.injEq] at h
      exact List.mem_map.mpr ⟨_, TextMap.mem_of_get? hname, h⟩

/-- Tables with the same languages are equal, since both keep them in order. -/
theorem eq_of_infos_perm {other : LanguageTable} (h : table.infos.Perm other.infos) :
    table = other := by
  have hinfos : table.infos = other.infos := by
    refine h.eq_of_pairwise (fun a b _ _ hab hba => ?_) table.infos_increasing
      other.infos_increasing
    exact absurd (String.lt_trans hab hba) (String.lt_irrefl a.key)
  have hentries : table.names.entries = other.names.entries := by
    refine (List.map_inj_right fun a b hab => ?_).mp hinfos
    obtain ⟨hkey, hname⟩ := LanguageInfo.mk.inj hab
    exact Prod.ext hkey hname
  cases table
  cases other
  exact congrArg LanguageTable.mk (TextMap.ext hentries)

theorem language_insert :
    (table.insert info).language key
      = if key = info.key then .ok info else table.language key := by
  by_cases hkey : key = info.key
  · simp [language, insert, hkey]
  · simp [language, insert, TextMap.get?_insert, hkey]

theorem infos_insert_perm (h : table.contains info.key = false) :
    (table.insert info).infos.Perm (info :: table.infos) := by
  have hnone : TextMap.valueOf? info.key table.names.entries = none := by
    simpa [contains, TextMap.contains, TextMap.get?] using h
  exact (TextMap.insertEntry_perm hnone).map _

/-! ## Calls -/

/-- A call that registers a language in a table that is changed in place: its answer, and
the table that it leaves. -/
def call (table : LanguageTable) (info : LanguageInfo) :
    Except RegistryError Unit × LanguageTable :=
  match table.register info with
  | .ok next => (.ok (), next)
  | .error error => (.error error, table)

/-- The table after calls, one after the other. -/
def afterCalls (table : LanguageTable) (calls : List LanguageInfo) : LanguageTable :=
  calls.foldl (fun table info => (table.call info).2) table

/-- A call registers its language, or is refused and changes nothing. -/
theorem call_cases (table : LanguageTable) (info : LanguageInfo) :
    (table.call info = (.ok (), table.insert info)
        ∧ info.IsWellFormed ∧ table.contains info.key = false)
      ∨ ∃ fault, table.call info = (.error (.config fault), table)
        ∧ info.Refused (fun key => table.contains key = true) fault := by
  unfold call
  cases hregister : table.register info with
  | ok next =>
    obtain ⟨hinfo, hfree, rfl⟩ := register_eq_ok_iff_isWellFormed.mp hregister
    exact .inl ⟨rfl, hinfo, hfree⟩
  | error error =>
    obtain ⟨fault, rfl, hrefused⟩ := register_eq_error_iff.mp hregister
    exact .inr ⟨fault, rfl, hrefused⟩

theorem call_eq_ok_iff :
    (table.call info).1 = .ok () ↔ info.IsWellFormed ∧ table.contains info.key = false := by
  rcases table.call_cases info with ⟨hcall, hinfo⟩ | ⟨fault, hcall, hrefused⟩
  · rw [hcall]
    exact ⟨fun _ => hinfo, fun _ => rfl⟩
  · rw [hcall]
    constructor
    · intro h
      cases h
    · rintro ⟨hinfo, hfree⟩
      rcases hrefused.not_isWellFormed_or with hill | htaken
      · exact absurd hinfo hill
      · rw [hfree] at htaken
        cases htaken

theorem call_of_ok (h : (table.call info).1 = .ok ()) :
    (table.call info).2 = table.insert info := by
  rcases table.call_cases info with ⟨hcall, -⟩ | ⟨fault, hcall, -⟩
  · rw [hcall]
  · rw [hcall] at h
    cases h

theorem call_of_error {error : RegistryError} (h : (table.call info).1 = .error error) :
    (table.call info).2 = table
      ∧ ∃ fault, error = .config fault
        ∧ info.Refused (fun key => table.contains key = true) fault := by
  rcases table.call_cases info with ⟨hcall, -⟩ | ⟨fault, hcall, hrefused⟩
  · rw [hcall] at h
    cases h
  · rw [hcall] at h ⊢
    exact ⟨rfl, fault, (Except.error.inj h).symm, hrefused⟩

/-! ## The log -/

/-- The language that a log registers under a key: the first well-formed one of this
key. -/
def registeredIn? (log : List LanguageInfo) (key : String) : Option LanguageInfo :=
  log.find? fun info => info.key = key ∧ info.IsWellFormed

/-- A log registers a key. -/
def IsRegisteredIn (log : List LanguageInfo) (key : String) : Prop :=
  ∃ info ∈ log, info.key = key ∧ info.IsWellFormed

theorem isRegisteredIn_iff :
    IsRegisteredIn log key ↔ ∃ info, registeredIn? log key = some info := by
  rw [← Option.isSome_iff_exists, registeredIn?, List.find?_isSome]
  simp [IsRegisteredIn]

theorem registeredIn?_append (log others : List LanguageInfo) (key : String) :
    registeredIn? (log ++ others) key
      = (registeredIn? log key).or (registeredIn? others key) :=
  List.find?_append

theorem registeredIn?_singleton (info : LanguageInfo) (key : String) :
    registeredIn? [info] key
      = if info.key = key ∧ info.IsWellFormed then some info else none := by
  rw [registeredIn?, List.find?_singleton]
  simp

/-- The table holds what the log registers. -/
def Holds (table : LanguageTable) (log : List LanguageInfo) : Prop :=
  ∀ key info, table.language key = .ok info ↔ registeredIn? log key = some info

namespace Holds

theorem empty : Holds .empty [] := by
  intro key info
  constructor
  · intro h
    cases h
  · intro h
    cases h

theorem contains_iff (h : table.Holds log) :
    table.contains key = true ↔ IsRegisteredIn log key := by
  rw [contains_iff_exists_language, isRegisteredIn_iff]
  exact exists_congr fun info => h key info

theorem contains_eq_false_iff (h : table.Holds log) :
    table.contains key = false ↔ registeredIn? log key = none := by
  rw [← Bool.not_eq_true, h.contains_iff, isRegisteredIn_iff, ← Option.isSome_iff_exists,
    Option.not_isSome_iff_eq_none]

/-- A call adds its language to the log, whether or not it is refused. -/
theorem call (h : table.Holds log) (info : LanguageInfo) :
    (table.call info).2.Holds (log ++ [info]) := by
  intro key other
  rw [registeredIn?_append, registeredIn?_singleton]
  rcases table.call_cases info with ⟨hcall, hinfo, hfree⟩ | ⟨fault, hcall, -⟩
  · rw [hcall, language_insert]
    by_cases hkey : key = info.key
    · subst hkey
      simp [h.contains_eq_false_iff.mp hfree, hinfo]
    · have hapart : ¬ (info.key = key ∧ info.IsWellFormed) := fun heq => hkey heq.1.symm
      rw [if_neg hkey, if_neg hapart, Option.or_none]
      exact h key other
  · -- a language that is refused registers nothing that the log does not
    rw [hcall, h key other]
    cases hfirst : registeredIn? log key with
    | some first => rfl
    | none =>
      have hapart : ¬ (info.key = key ∧ info.IsWellFormed) := by
        rintro ⟨rfl, hinfo⟩
        have hok := call_eq_ok_iff.mpr ⟨hinfo, h.contains_eq_false_iff.mpr hfirst⟩
        rw [hcall] at hok
        cases hok
      rw [if_neg hapart, Option.or_none]

theorem afterCalls {calls : List LanguageInfo} :
    ∀ {table : LanguageTable} {log : List LanguageInfo}, table.Holds log →
      (table.afterCalls calls).Holds (log ++ calls) := by
  induction calls with
  | nil =>
    intro table log h
    rw [List.append_nil]
    exact h
  | cons info calls ih =>
    intro table log h
    have hrest := ih (h.call info)
    rw [List.append_assoc] at hrest
    exact hrest

/-- The empty table and the built-in one hold the languages that they start with. -/
theorem start {start : LanguageTable} (h : start = .empty ∨ start = .builtin) :
    start.Holds start.infos := by
  rcases h with rfl | rfl
  · exact empty
  · have hbuiltin : LanguageTable.empty.afterCalls builtin.infos = builtin := by
      decide +kernel
    have hholds : (LanguageTable.empty.afterCalls builtin.infos).Holds builtin.infos :=
      empty.afterCalls
    rwa [hbuiltin] at hholds

end Holds

end CoverageRegistry.LanguageTable
