import CoverageRegistry.Proofs.Path.Noise

/-!
# Paths below a directory

Taking a base directory off a path and resolving a path against a base undo each other,
up to what normalization cannot see. Taking off is about components: a normal path starts
with those of a base when its names start with the names of the base, however the base is
written, and what is left spells the other names (`relativeTo_eq_some_iff`). Resolving is
about the stack machine, which does on top of the names of a base what it does on the
empty stack (`foldlM_step_append`), as long as no `..` asks for more than was put there.
-/

namespace CoverageRegistry

namespace Path

/-! ## Components that start with the root -/

theorem ofSegment?_ne_root (segment : Segment) :
    Component.ofSegment? segment ≠ some .root := by
  unfold Component.ofSegment?
  intro h
  split at h
  · cases h
  · split at h <;> cases h

/-- Only the anchor of a path is the root. -/
theorem components_eq_root_cons_iff {p : Path} {cs : List Component} :
    p.components = .root :: cs
      ↔ p.anchor? = some .root ∧ p.body.filterMap Component.ofSegment? = cs := by
  rw [components]
  cases hanchor : p.anchor? with
  | none =>
    constructor
    · intro h
      have hroot : Component.root ∈ p.body.filterMap Component.ofSegment? := by
        rw [show p.body.filterMap Component.ofSegment? = .root :: cs from h]
        exact List.mem_cons_self
      obtain ⟨segment, -, hsegment⟩ := List.mem_filterMap.mp hroot
      exact absurd hsegment (ofSegment?_ne_root segment)
    · rintro ⟨h, -⟩
      cases h
  | some anchor => simp [eq_comm]

theorem isAbsolute_of_anchor? {p : Path} (h : p.anchor? = some .root) :
    p.isAbsolute = true := by
  unfold anchor? at h
  rw [isAbsolute_iff]
  split at h
  · cases h
  · rename_i b rest hbytes
    split at h
    · rename_i hb
      rw [hbytes, hb, List.head?_cons]
    · split at h <;> cases h

theorem eq_of_map_componentOf {segments names : List Segment}
    (h : segments.map componentOf = names.map .name) : segments = names := by
  induction segments generalizing names with
  | nil => exact (List.map_eq_nil_iff.mp h.symm).symm
  | cons segment segments ih =>
    cases names with
    | nil => cases h
    | cons name names =>
      obtain ⟨hhead, hrest⟩ := List.cons.inj h
      unfold componentOf at hhead
      split at hhead
      · cases hhead
      · rw [Component.name.inj hhead, ih hrest]

/-- A path whose components are the root and names has these names as its segments,
with noise between them. -/
theorem loud_segments_of_components {p : Path} {names : List Segment}
    (h : p.components = .root :: names.map .name) :
    p.isAbsolute = true ∧ loud p.segments = names := by
  have habsolute := isAbsolute_of_anchor? (components_eq_root_cons_iff.mp h).1
  rw [components_of_isAbsolute habsolute] at h
  exact ⟨habsolute, eq_of_map_componentOf (List.cons.inj h).2⟩

/-! ## Taking a base off a normal path -/

theorem stripComponents_eq_some_iff {names : List Segment}
    (hnames : ∀ name ∈ names, IsName name) :
    ∀ {cs : List Component} {rest : List Segment},
      stripComponents cs names = some rest
        ↔ ∃ front, cs = front.map .name ∧ names = front ++ rest := by
  induction names with
  | nil =>
    intro cs rest
    cases cs <;> simp [stripComponents, eq_comm]
  | cons name names ih =>
    have hname : IsName name := hnames name List.mem_cons_self
    have hcomponent : Component.ofSegment? name = some (.name name) := by
      simp [Component.ofSegment?, hname.ne_nil, hname.ne_here, hname.ne_parent]
    have hothers : ∀ other ∈ names, IsName other := fun other hother =>
      hnames other (List.mem_cons_of_mem _ hother)
    intro cs rest
    cases cs with
    | nil => simp [stripComponents, eq_comm]
    | cons c cs =>
      simp only [stripComponents, hcomponent]
      split
      · rename_i hc
        rw [ih hothers]
        constructor
        · rintro ⟨front, rfl, rfl⟩
          exact ⟨name :: front, by rw [hc, List.map_cons], rfl⟩
        · rintro ⟨front, hcs, heq⟩
          cases front with
          | nil => cases hcs
          | cons first front =>
            exact ⟨front, (List.cons.inj hcs).2, (List.cons.inj heq).2⟩
      · rename_i hc
        constructor
        · intro h
          cases h
        · rintro ⟨front, hcs, heq⟩
          cases front with
          | nil => cases hcs
          | cons first front =>
            rw [List.map_cons, List.cons.injEq] at hcs
            rw [List.cons_append, List.cons.injEq] at heq
            exact absurd (heq.1 ▸ hcs.1) hc

theorem dropWhile_isNoise_of_names {names : List Segment}
    (hnames : ∀ name ∈ names, IsName name) : names.dropWhile isNoise = names := by
  cases names with
  | nil => rfl
  | cons name names =>
    rw [List.dropWhile_cons_of_neg]
    simp [(hnames name List.mem_cons_self).isNoise]

/-- A base without components takes nothing off. -/
theorem relativeTo_of_components_eq_nil {names : List Segment}
    (hnames : ∀ name ∈ names, IsName name) {base : Path} (hbase : base.components = []) :
    (ofSegments names).relativeTo base = some (ofSegments names) := by
  rw [relativeTo, if_pos hbase, anchorBytes_ofSegments, body_ofSegments]
  by_cases hne : names = []
  · subst hne
    rfl
  · rw [splitOn_joinSegments hnames hne, dropNoiseEnd_of_names hnames]
    rfl

/-- What is left of a normal path: the names after those of the base. -/
theorem relativeTo_eq_some_iff {names : List Segment}
    (hnames : ∀ name ∈ names, IsName name) {base r : Path} (hbase : base.components ≠ []) :
    (ofSegments names).relativeTo base = some r
      ↔ ∃ front rest, names = front ++ rest ∧ base.components = .root :: front.map .name
        ∧ r = ⟨joinSegments rest⟩ := by
  rw [relativeTo, if_neg hbase, anchor?_ofSegments, body_ofSegments]
  simp only [components_eq_root_cons_iff]
  by_cases hanchor : base.anchor? = some .root
  · rw [if_neg (not_not_intro hanchor)]
    generalize base.body.filterMap Component.ofSegment? = cs
    simp only [Option.map_eq_some_iff, hanchor, true_and]
    by_cases hne : names = []
    · -- the root has one segment, which is empty
      subst hne
      cases cs with
      | nil => simp [stripComponents, joinSegments, dropNoiseEnd, isNoise,
          Component.ofSegment?, eq_comm]
      | cons c cs => simp [stripComponents, joinSegments, Component.ofSegment?]
    · rw [splitOn_joinSegments hnames hne]
      simp only [stripComponents_eq_some_iff hnames]
      constructor
      · rintro ⟨rest, ⟨front, hcs, rfl⟩, hr⟩
        have hrest : ∀ name ∈ rest, IsName name := fun name hname =>
          hnames name (List.mem_append_right _ hname)
        rw [dropWhile_isNoise_of_names hrest, dropNoiseEnd_of_names hrest] at hr
        exact ⟨front, rest, rfl, hcs, hr.symm⟩
      · rintro ⟨front, rest, rfl, hcs, rfl⟩
        have hrest : ∀ name ∈ rest, IsName name := fun name hname =>
          hnames name (List.mem_append_right _ hname)
        refine ⟨rest, ⟨front, hcs, rfl⟩, ?_⟩
        rw [dropWhile_isNoise_of_names hrest, dropNoiseEnd_of_names hrest]
  · simp [hanchor]

end Path

/-! ## Resolving on top of a base -/

namespace StackMachine

theorem step_append {stack next : List Segment} {segment : Segment}
    (h : step stack segment = some next) (below : List Segment) :
    step (below ++ stack) segment = some (below ++ next) := by
  unfold step at h ⊢
  split at h
  · rename_i hback
    split at h
    · cases h
    · rename_i hne
      obtain rfl : stack.dropLast = next := Option.some.inj h
      rw [if_pos hback, if_neg (by simp [hne]), List.dropLast_append_of_ne_nil hne]
  · rename_i hback
    obtain rfl : stack ++ [segment] = next := Option.some.inj h
    rw [if_neg hback, List.append_assoc]

/-- What lies below the stack is left alone. -/
theorem foldlM_step_append {segments : List Segment} :
    ∀ {stack next : List Segment}, segments.foldlM step stack = some next →
      ∀ below : List Segment, segments.foldlM step (below ++ stack) = some (below ++ next) := by
  induction segments with
  | nil =>
    intro stack next h below
    obtain rfl : stack = next := Option.some.inj h
    rfl
  | cons segment segments ih =>
    intro stack next h below
    rw [List.foldlM_cons] at h ⊢
    cases hstep : step stack segment with
    | none => rw [hstep] at h; cases h
    | some middle =>
      rw [hstep] at h
      rw [step_append hstep below]
      exact ih h below

/-- Names, and then segments that leave a stack of their own. -/
theorem run_names_append {names segments stack : List Segment}
    (hnames : ∀ name ∈ names, Path.IsName name) (h : run segments = some stack) :
    run (names ++ segments) = some (names ++ stack) := by
  have hbelow := foldlM_step_append h names
  rw [List.append_nil] at hbelow
  rw [run, List.foldlM_append, foldlM_step_of_names hnames []]
  exact hbelow

end StackMachine

open StackMachine

/-- A relative path is resolved by the machine on top of its base. -/
theorem normalizePath_of_run {path base : Path} {stack : List Segment}
    (hpath : path.bytes ≠ []) (hrelative : ¬ OpensAtRoot (slashedText path))
    (hbase : base.isAbsolute = true)
    (h : run (Path.loud (base.segments ++ textSegments (slashedText path))) = some stack) :
    normalizePath path base = .ok (Path.ofSegments stack) := by
  rw [normalizePath_eq, if_neg hpath, if_neg (by simp [hbase]), input, if_neg hrelative, h]
  rfl

namespace Path

theorem head?_joinSegments {name : Segment} (h : name ≠ []) (others : List Segment) :
    (joinSegments (name :: others)).head? = name.head? := by
  cases others with
  | nil => simp [joinSegments, List.intercalate_singleton]
  | cons next others =>
    rw [joinSegments, List.intercalate_cons_cons, List.append_assoc, List.head?_append]
    cases name with
    | nil => exact absurd rfl h
    | cons b name => rfl

/-- Joined names spell a relative path. -/
theorem isAbsolute_joinSegments {names : List Segment}
    (hnames : ∀ name ∈ names, IsName name) :
    (Path.mk (joinSegments names)).isAbsolute = false := by
  cases names with
  | nil => rfl
  | cons name others =>
    have hname : IsName name := hnames name List.mem_cons_self
    rw [isAbsolute, head?_joinSegments hname.ne_nil]
    exact hname.isAbsolute

theorem joinSegments_ne_nil {names : List Segment} (hnames : ∀ name ∈ names, IsName name)
    (hne : names ≠ []) : joinSegments names ≠ [] := by
  cases names with
  | nil => exact absurd rfl hne
  | cons name others =>
    have hname : name ≠ [] := (hnames name List.mem_cons_self).ne_nil
    intro hnil
    have hhead := head?_joinSegments hname others
    rw [hnil] at hhead
    exact hname (List.head?_eq_none_iff.mp hhead.symm)

end Path

/-- What is left of a normal path below a base leads back to the path, if anything is
left. -/
theorem normalizePath_of_relativeTo {c base r : Path} (hc : c.IsNormal)
    (hplain : IsPlain c.bytes) (h : c.relativeTo base = some r) :
    r.bytes = [] ∨ normalizePath r base = .ok c := by
  obtain ⟨names, hnames, rfl⟩ := hc.exists_names
  by_cases hbase : base.components = []
  · rw [Path.relativeTo_of_components_eq_nil hnames hbase, Option.some.injEq] at h
    subst h
    exact .inr (normalizePath_of_isNormal hc hplain base)
  · obtain ⟨front, rest, rfl, hcomponents, rfl⟩ :=
      (Path.relativeTo_eq_some_iff hnames hbase).mp h
    by_cases hne : rest = []
    · subst hne
      exact .inl rfl
    have hrest : ∀ name ∈ rest, Path.IsName name := fun name hname =>
      hnames name (List.mem_append_right _ hname)
    obtain ⟨habsolute, hfront⟩ := Path.loud_segments_of_components hcomponents
    -- the names that are left stand in the path, so they are as plain as it is
    have hloud := Path.loud_segments_ofSegments hnames
    have hrplain : IsPlain (Path.joinSegments rest) := by
      refine IsPlain.joinSegments fun name hname => hplain.of_mem_segments ?_
      have hmem : name ∈ Path.loud (Path.ofSegments (front ++ rest)).segments := by
        rw [hloud]
        exact List.mem_append_right _ hname
      exact (List.mem_filter.mp hmem).1
    let r : Path := ⟨Path.joinSegments rest⟩
    obtain ⟨hshown, hslashes⟩ : Path.ofText r.display = r ∧ slashedText r = r.display :=
      hrplain.ofText_display
    refine .inr (normalizePath_of_run (Path.joinSegments_ne_nil hrest hne) ?_ habsolute ?_)
    · rw [hslashes, ← isAbsolute_ofText, hshown, Path.isAbsolute_joinSegments hrest]
      exact Bool.false_ne_true
    · have hsegments : r.segments = rest := Path.splitOn_joinSegments hrest hne
      rw [hslashes, ← segments_ofText, hshown, Path.loud_append, hfront, hsegments,
        Path.loud_of_names hrest]
      exact foldlM_step_of_names hnames []

theorem opensAtRoot_normalizeSlashes {text : String} :
    OpensAtRoot (normalizeSlashes text)
      ↔ text.toList.head? = some '/' ∨ text.toList.head? = some '\\' := by
  rw [OpensAtRoot, Text.toList_normalizeSlashes, List.head?_map]
  cases text.toList.head? with
  | none => simp
  | some c =>
    simp only [Option.map_some, Option.some.injEq, Text.slashed]
    split
    · rename_i hc
      simp [hc]
    · rename_i hc
      simp [hc]

/-- A relative text that the machine can run by itself leads below any normal base, and
what is left below the base is what the machine leaves of the text. -/
theorem relativeTo_of_run {base : Path} (hbase : base.IsNormal) {text : String}
    (hne : text ≠ "") (hrelative : ¬ OpensAtRoot (normalizeSlashes text))
    {stack : List Segment}
    (h : run (Path.loud (textSegments (normalizeSlashes text))) = some stack) :
    ∃ c : Path, normalizePath (.ofText text) base = .ok c
      ∧ base.components <+: c.components
      ∧ c.relativeTo base = some ⟨Path.joinSegments stack⟩ := by
  obtain ⟨names, hnames, rfl⟩ := hbase.exists_names
  have hcomponents := Path.components_ofSegments hnames
  have hstack : ∀ name ∈ stack, Path.IsName name := by
    refine isName_foldlM_step (by simp) (fun segment hsegment => ?_) h
    rw [← segments_ofText] at hsegment
    exact isLoud_of_mem_segments hsegment
  have hall : ∀ name ∈ names ++ stack, Path.IsName name := by
    intro name hname
    rcases List.mem_append.mp hname with hname | hname
    · exact hnames name hname
    · exact hstack name hname
  refine ⟨.ofSegments (names ++ stack), ?_, ?_, ?_⟩
  · refine normalizePath_of_run (fun hnil => hne (eq_empty_of_encode_eq_nil hnil)) ?_ rfl ?_
    · rwa [slashedText_ofText]
    · rw [slashedText_ofText, Path.loud_append, Path.loud_segments_ofSegments hnames]
      exact run_names_append hnames h
  · rw [hcomponents, Path.components_ofSegments hall, List.map_append]
    exact List.prefix_append _ _
  · rw [Path.relativeTo_eq_some_iff hall (by simp [hcomponents])]
    exact ⟨names, stack, rfl, hcomponents, rfl⟩

/-- **Taking a base off and resolving against it undo each other.** If a base can be taken
off a normal form that spells a text without backslashes, what is left is empty or leads
back when it is resolved against the base, however the base is written. And a relative
text none of whose `..` goes above the place where it starts leads below any normal form,
and what is left below it are the segments of the text, collapsed. -/
theorem relativeTo_normalizePath_inverse :
    (∀ path start c base r : Path, normalizePath path start = .ok c → IsPlain c.bytes →
        c.relativeTo base = some r → r.bytes = [] ∨ normalizePath r base = .ok c)
      ∧ ∀ (path start base : Path) (text : String), normalizePath path start = .ok base →
        text ≠ "" → text.toList.head? ≠ some '/' → text.toList.head? ≠ some '\\' →
        let segments := Path.loud (textSegments (normalizeSlashes text))
        ¬ Underflows segments →
          ∃ stack c, run segments = some stack
            ∧ normalizePath (.ofText text) base = .ok c
            ∧ base.components <+: c.components
            ∧ c.relativeTo base = some ⟨Path.joinSegments stack⟩ := by
  constructor
  · intro path start c base r hc hplain hr
    exact normalizePath_of_relativeTo (isNormal_of_normalizePath hc) hplain hr
  · intro path start base text hbase hne hslash hbackslash segments hflow
    have hrelative : ¬ OpensAtRoot (normalizeSlashes text) := by
      rw [opensAtRoot_normalizeSlashes]
      exact not_or.mpr ⟨hslash, hbackslash⟩
    obtain ⟨stack, hrun⟩ : ∃ stack, run segments = some stack := by
      rw [← run_eq_none_iff] at hflow
      exact Option.ne_none_iff_exists'.mp hflow
    obtain ⟨c, hc, hbelow, hleft⟩ :=
      relativeTo_of_run (isNormal_of_normalizePath hbase) hne hrelative hrun
    exact ⟨stack, c, hrun, hc, hbelow, hleft⟩

/-- A base with noise in it, and a text that goes down and up again. -/
theorem relativeTo_normalizePath_inverse_noise :
    let c := Path.ofText "/w/m/a b/x.xml"
    let r := Path.ofText "a b/x.xml"
    c.relativeTo (.ofText "/w/.//m/") = some r
      ∧ normalizePath r (.ofText "/w/.//m/") = .ok c
      ∧ ∃ d, normalizePath (.ofText ".\\k\\..\\x/y") (.ofText "/w/m") = .ok d
        ∧ d.relativeTo (.ofText "/w/m") = some (.ofText "x/y") := by
  intro c r
  obtain ⟨hback, hbelow⟩ := relativeTo_normalizePath_inverse
  have hc : normalizePath c (.ofText "/") = .ok c := by decide +kernel
  have hplain : IsPlain c.bytes := ⟨"/w/m/a b/x.xml".toList, by decide, rfl⟩
  have hr : c.relativeTo (.ofText "/w/.//m/") = some r := by decide +kernel
  have hnonempty : r.bytes ≠ [] := by decide +kernel
  have hrun : run (Path.loud (textSegments (normalizeSlashes ".\\k\\..\\x/y")))
      = some [Utf8.encode ['x'], Utf8.encode ['y']] := by decide +kernel
  have hbase : normalizePath (.ofText "/w/m") (.ofText "/") = .ok (.ofText "/w/m") := rfl
  obtain ⟨stack, d, hstack, hd, -, hleft⟩ :=
    hbelow _ _ _ ".\\k\\..\\x/y" hbase (by decide) (by decide) (by decide)
      (by rw [← run_eq_none_iff, hrun]; exact nofun)
  rw [hrun, Option.some.injEq] at hstack
  subst hstack
  exact ⟨hr, (hback _ _ c _ r hc hplain hr).resolve_left hnonempty, d, hd, hleft⟩

end CoverageRegistry
