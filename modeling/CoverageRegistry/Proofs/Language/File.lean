import CoverageRegistry.Proofs.Language.Calls

/-!
# Languages files

A document that lists languages has them registered one after the other, and the first one
that is refused refuses the document (`foldlM_register_eq_error_iff`). None is refused when
each is well formed and no key comes twice, which no order can change
(`foldlM_register_eq_ok_iff`). Nor does the table depend on the order, since a table is
determined by the languages in it. `ofToml_of_lists` says so of the texts themselves.
-/

namespace CoverageRegistry.LanguageTable

variable {table table' : LanguageTable} {infos : List LanguageInfo}

/-! ## Registering one after the other -/

theorem foldlM_register_cons (info : LanguageInfo) (infos : List LanguageInfo) :
    (info :: infos).foldlM register table
      = match table.register info with
        | .ok next => infos.foldlM register next
        | .error error => .error error := by
  rw [List.foldlM_cons]
  cases table.register info <;> rfl

/-- Languages are inserted as the entries of their keys. -/
theorem names_foldl_insert (table : LanguageTable) (infos : List LanguageInfo) :
    (infos.foldl insert table).names
      = (infos.map fun info => (info.key, info.name)).foldl
          (fun m pair => m.insert pair.1 pair.2) table.names := by
  rw [List.foldl_map]
  exact (List.foldl_hom names fun _ _ => rfl).symm

theorem contains_foldl_insert (key : String) (table : LanguageTable) :
    (infos.foldl insert table).contains key = true
      ↔ key ∈ infos.map LanguageInfo.key ∨ table.contains key = true := by
  rw [contains, names_foldl_insert, TextMap.contains_foldl_insert, List.map_map]
  rfl

/-- Languages are all registered when each is well formed and no key comes twice. -/
theorem foldlM_register_eq_ok_iff :
    ∀ {table : LanguageTable}, infos.foldlM register table = .ok table'
      ↔ (∀ info ∈ infos, info.IsWellFormed) ∧ (infos.map LanguageInfo.key).Nodup
        ∧ (∀ info ∈ infos, table.contains info.key = false)
        ∧ table' = infos.foldl insert table := by
  induction infos with
  | nil =>
    intro table
    have hnil : [].foldlM register table = .ok table := rfl
    rw [hnil, Except.ok.injEq, eq_comm]
    simp
  | cons info infos ih =>
    intro table
    have hfirst : (info :: infos).foldlM register table = .ok table'
        ↔ info.IsWellFormed ∧ table.contains info.key = false
          ∧ infos.foldlM register (table.insert info) = .ok table' := by
      rw [foldlM_register_cons]
      cases hregister : table.register info with
      | ok next =>
        obtain ⟨hinfo, hfree, rfl⟩ := register_eq_ok_iff_isWellFormed.mp hregister
        simp [hinfo, hfree]
      | error error =>
        constructor
        · intro h
          cases h
        · rintro ⟨hinfo, hfree, -⟩
          rw [register_eq_ok_iff_isWellFormed.mpr ⟨hinfo, hfree, rfl⟩] at hregister
          cases hregister
    -- the keys that are free after the first language are free before it, and differ from its
    have hfree : (∀ other ∈ infos, (table.insert info).contains other.key = false)
        ↔ (∀ other ∈ infos, table.contains other.key = false)
          ∧ info.key ∉ infos.map LanguageInfo.key := by
      simp only [← Bool.not_eq_true, contains_insert, not_or, List.mem_map, not_exists,
        not_and]
      constructor
      · intro h
        exact ⟨fun other hother => (h other hother).2, fun other hother => (h other hother).1⟩
      · rintro ⟨hbefore, hapart⟩ other hother
        exact ⟨hapart other hother, hbefore other hother⟩
    rw [hfirst, ih, hfree, List.map_cons, List.nodup_cons, List.forall_mem_cons,
      List.forall_mem_cons, List.foldl_cons]
    tauto

/-- The first language that is refused refuses the list. -/
theorem foldlM_register_eq_error_iff {error : RegistryError} :
    ∀ {table : LanguageTable}, infos.foldlM register table = .error error
      ↔ ∃ before info after next, infos = before ++ info :: after
        ∧ before.foldlM register table = .ok next ∧ next.register info = .error error := by
  induction infos with
  | nil =>
    intro table
    simp [pure, Except.pure]
  | cons info infos ih =>
    intro table
    rw [foldlM_register_cons]
    constructor
    · intro h
      cases hregister : table.register info with
      | error refusal =>
        rw [hregister] at h
        cases h
        exact ⟨[], info, infos, table, rfl, rfl, hregister⟩
      | ok middle =>
        rw [hregister] at h
        obtain ⟨before, other, after, next, rfl, hbefore, hother⟩ := ih.mp h
        refine ⟨info :: before, other, after, next, rfl, ?_, hother⟩
        rw [foldlM_register_cons, hregister]
        exact hbefore
    · rintro ⟨before, other, after, next, heq, hbefore, hother⟩
      cases before with
      | nil =>
        obtain ⟨rfl, rfl⟩ := List.cons.inj heq
        obtain rfl : table = next := Except.ok.inj hbefore
        rw [hother]
      | cons first before =>
        obtain ⟨rfl, rfl⟩ := List.cons.inj heq
        rw [foldlM_register_cons] at hbefore
        cases hregister : table.register info with
        | error refusal => rw [hregister] at hbefore; cases hbefore
        | ok middle =>
          rw [hregister] at hbefore
          exact ih.mpr ⟨before, other, after, next, rfl, hbefore, hother⟩

/-- A table that is filled with new keys has the languages it was filled with. -/
theorem infos_foldl_insert_empty_perm (h : (infos.map LanguageInfo.key).Nodup) :
    (infos.foldl insert .empty).infos.Perm infos := by
  have hkeys : ((infos.map fun info => (info.key, info.name)).map Prod.fst).Nodup := by
    rwa [List.map_map]
  have hentries : (infos.foldl insert .empty).names.entries.Perm
      (infos.map fun info => (info.key, info.name)) := by
    rw [names_foldl_insert]
    exact TextMap.entries_ofList_perm hkeys
  have hinfos := hentries.map fun entry => (⟨entry.1, entry.2⟩ : LanguageInfo)
  rw [List.map_map] at hinfos
  exact hinfos.trans (.of_eq (List.map_id infos))

/-! ## Documents -/

/-- A text that is read as a list of languages. -/
def Lists (text : String) (infos : List LanguageInfo) : Prop :=
  ∃ document, Toml.parse text = .ok document ∧ listed? document = some infos

theorem lists_iff {text : String} :
    Lists text infos ↔ (Toml.parse text).toOption.bind listed? = some infos := by
  rw [Lists]
  cases Toml.parse text <;> simp [Except.toOption]

theorem Lists.ofToml_eq {text : String} (h : Lists text infos) :
    ofToml text = ofList infos := by
  obtain ⟨document, hparse, hlisted⟩ := h
  simp only [ofToml, hparse, Except.mapError, bind, Except.bind, hlisted]

/-- What a list of languages has to be to make a table: not empty, each language well
formed, and no key twice. -/
structure IsLanguageList (infos : List LanguageInfo) : Prop where
  ne_nil : infos ≠ []
  isWellFormed : ∀ info ∈ infos, info.IsWellFormed
  nodup : (infos.map LanguageInfo.key).Nodup

/-- The fault of the first language that is not well formed or repeats the key of one
before it. -/
def FirstFault (infos : List LanguageInfo) (fault : ConfigError) : Prop :=
  ∃ before info after, infos = before ++ info :: after
    ∧ (∀ other ∈ before, other.IsWellFormed) ∧ (before.map LanguageInfo.key).Nodup
    ∧ info.Refused (· ∈ before.map LanguageInfo.key) fault

theorem ofList_eq_ok_iff :
    ofList infos = .ok table ↔ IsLanguageList infos ∧ table.infos.Perm infos := by
  rw [ofList]
  by_cases hnil : infos = []
  · subst hnil
    constructor
    · intro h
      cases h
    · intro h
      exact absurd rfl h.1.ne_nil
  · rw [if_neg (by simpa using hnil), foldlM_register_eq_ok_iff]
    constructor
    · rintro ⟨hall, hnodup, -, rfl⟩
      exact ⟨⟨hnil, hall, hnodup⟩, infos_foldl_insert_empty_perm hnodup⟩
    · rintro ⟨hinfos, hperm⟩
      refine ⟨hinfos.isWellFormed, hinfos.nodup, fun _ _ => rfl, ?_⟩
      exact eq_of_infos_perm
        (hperm.trans (infos_foldl_insert_empty_perm hinfos.nodup).symm)

theorem ofList_eq_error {error : RegistryError} (h : ofList infos = .error error) :
    (infos = [] ∧ error = .config .noLanguages)
      ∨ ∃ fault, error = .config fault ∧ FirstFault infos fault := by
  rw [ofList] at h
  by_cases hnil : infos = []
  · subst hnil
    cases h
    exact .inl ⟨rfl, rfl⟩
  · rw [if_neg (by simpa using hnil), foldlM_register_eq_error_iff] at h
    obtain ⟨before, info, after, next, rfl, hbefore, hinfo⟩ := h
    obtain ⟨hall, hnodup, -, rfl⟩ := foldlM_register_eq_ok_iff.mp hbefore
    obtain ⟨fault, rfl, hrefused⟩ := register_eq_error_iff.mp hinfo
    refine .inr ⟨fault, rfl, before, info, after, rfl, hall, hnodup, ?_⟩
    refine hrefused.mono fun key htaken => ?_
    rcases (contains_foldl_insert key _).mp htaken with hbefore | hempty
    · exact hbefore
    · cases hempty

theorem IsLanguageList.of_perm {infos' : List LanguageInfo} (h : IsLanguageList infos)
    (hperm : infos'.Perm infos) : IsLanguageList infos' := by
  refine ⟨?_, fun info hinfo => h.isWellFormed info (hperm.mem_iff.mp hinfo), ?_⟩
  · rintro rfl
    exact h.ne_nil hperm.nil_eq.symm
  · exact (hperm.map _).nodup_iff.mpr h.nodup

/-- A text whose languages stand in another order makes the same table, or none. -/
theorem ofToml_of_perm {text text' : String} {infos' : List LanguageInfo}
    (h : Lists text infos) (h' : Lists text' infos') (hperm : infos'.Perm infos) :
    ofToml text' = .ok table ↔ ofToml text = .ok table := by
  rw [h.ofToml_eq, h'.ofToml_eq, ofList_eq_ok_iff, ofList_eq_ok_iff]
  constructor
  · rintro ⟨hinfos, htable⟩
    exact ⟨hinfos.of_perm hperm.symm, htable.trans hperm⟩
  · rintro ⟨hinfos, htable⟩
    exact ⟨hinfos.of_perm hperm, htable.trans hperm.symm⟩

/-- **Languages files.** Let a text be read as a list of languages. It makes a table exactly
when the list is not empty, each language is well formed and no key comes twice. Then the
table has these languages and no others. A text that lists the same languages in another
order makes the same table, or none either. Where none is made, the list is empty, or the
error names the fault of the first language that is not well formed or repeats the key of
one before it. -/
theorem ofToml_of_lists {text : String} {infos : List LanguageInfo} (h : Lists text infos) :
    ((∃ table, ofToml text = .ok table) ↔ IsLanguageList infos)
      ∧ (∀ table, ofToml text = .ok table → table.infos.Perm infos
        ∧ ∀ info, table.language info.key = .ok info ↔ info ∈ infos)
      ∧ (∀ (text' : String) (infos' : List LanguageInfo), Lists text' infos' →
        infos'.Perm infos → ∀ table, ofToml text' = .ok table ↔ ofToml text = .ok table)
      ∧ ∀ error, ofToml text = .error error →
        (infos = [] ∧ error = .config .noLanguages)
          ∨ ∃ fault, error = .config fault ∧ FirstFault infos fault := by
  refine ⟨?_, ?_, ?_, ?_⟩
  · rw [h.ofToml_eq]
    constructor
    · rintro ⟨table, htable⟩
      exact (ofList_eq_ok_iff.mp htable).1
    · intro hinfos
      exact ⟨_, ofList_eq_ok_iff.mpr ⟨hinfos, infos_foldl_insert_empty_perm hinfos.nodup⟩⟩
  · intro table htable
    rw [h.ofToml_eq] at htable
    have hperm := (ofList_eq_ok_iff.mp htable).2
    exact ⟨hperm, fun info => mem_infos_iff.symm.trans hperm.mem_iff⟩
  · intro text' infos' h' hperm table
    exact ofToml_of_perm h h' hperm
  · intro error herror
    rw [h.ofToml_eq] at herror
    exact ofList_eq_error herror

/-- Two languages, one of them an array in the second text, in either order. -/
theorem ofToml_of_lists_swapped :
    let text := "[[language]]\nkey = \"go\"\nname = \"Go\"\n"
      ++ "[[language]]\nkey = \"c\"\nname = \"C\""
    let text' := "language = [[\"c\", \"C\"], [\"go\", \"Go\"]]"
    let infos : List LanguageInfo := [⟨"go", "Go"⟩, ⟨"c", "C"⟩]
    Lists text infos ∧ Lists text' infos.reverse
      ∧ ∃ table, ofToml text = .ok table ∧ ofToml text' = .ok table := by
  intro text text' infos
  have h : Lists text infos := lists_iff.mpr (by decide +kernel)
  have h' : Lists text' infos.reverse := lists_iff.mpr (by decide +kernel)
  obtain ⟨hok, -, hperm, -⟩ := ofToml_of_lists h
  obtain ⟨table, htable⟩ := hok.mpr ⟨by decide, by decide +kernel, by decide⟩
  exact ⟨h, h', table, htable, (hperm _ _ h' (List.reverse_perm _) table).mpr htable⟩

end CoverageRegistry.LanguageTable
