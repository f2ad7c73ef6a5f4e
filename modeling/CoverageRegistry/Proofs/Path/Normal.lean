import CoverageRegistry.Proofs.Path.Segments

/-!
# Normal paths

A normal path is the root and names with single separators between them. On such
paths the octets do what their names do: continuing one by a name puts the name at
the end (`join_ofSegments`), and its parent is the path without the last name
(`parent?_ofSegments`). A place has one normal path (`IsNormal.eq_of_sameAs`).
-/

namespace CoverageRegistry.Path

/-! ## Names -/

/-- A name: it is not empty, not `.` and not `..`, and has no separator in it. -/
structure IsName (segment : Segment) : Prop where
  ne_nil : segment ≠ []
  ne_here : segment ≠ [0x2E]
  ne_parent : segment ≠ [0x2E, 0x2E]
  no_separator : separator ∉ segment

theorem IsName.isNoise {segment : Segment} (h : IsName segment) :
    isNoise segment = false := by
  simp [Path.isNoise, Component.ofSegment?, h.ne_nil, h.ne_here, h.ne_parent]

theorem IsName.isAbsolute {segment : Segment} (h : IsName segment) :
    (Path.mk segment).isAbsolute = false := by
  cases segment with
  | nil => exact absurd rfl h.ne_nil
  | cons b rest =>
    have hb : separator ≠ b := fun hb => h.no_separator (by simp [hb])
    simp [Path.isAbsolute, Ne.symm hb]

/-- A normal path: the root, then names with single separators between them. -/
def IsNormal (p : Path) : Prop :=
  ∃ names : List Segment, (∀ name ∈ names, IsName name) ∧
    p.bytes = separator :: [separator].intercalate names

/-! ## The components of a normal path -/

theorem splitOn_joinSegments {names : List Segment} (hnames : ∀ name ∈ names, IsName name)
    (hne : names ≠ []) : (joinSegments names).splitOn separator = names :=
  List.splitOn_intercalate separator (fun name hname => (hnames name hname).no_separator)
    hne

theorem loud_of_names {names : List Segment} (hnames : ∀ name ∈ names, IsName name) :
    loud names = names := by
  rw [loud, List.filter_eq_self]
  intro name hname
  simp [(hnames name hname).ne_nil, (hnames name hname).ne_here]

theorem loud_segments_of_names {p : Path} {names : List Segment}
    (hnames : ∀ name ∈ names, IsName name)
    (hbytes : p.bytes = separator :: [separator].intercalate names) :
    loud p.segments = names := by
  rw [loud_segments_of_bytes hbytes]
  by_cases hne : names = []
  · rw [hne]
    rfl
  · exact (congrArg loud (splitOn_joinSegments hnames hne)).trans (loud_of_names hnames)

/-- The components of a normal path are the root and its names. -/
theorem components_of_names {p : Path} {names : List Segment}
    (hnames : ∀ name ∈ names, IsName name)
    (hbytes : p.bytes = separator :: [separator].intercalate names) :
    p.components = .root :: names.map .name := by
  have habsolute : p.isAbsolute = true := by simp [Path.isAbsolute, hbytes]
  rw [components_of_isAbsolute habsolute, loud_segments_of_names hnames hbytes]
  congr 1
  refine List.map_congr_left fun name hname => ?_
  rw [componentOf, if_neg (hnames name hname).ne_parent]

theorem loud_segments_ofSegments {names : List Segment}
    (hnames : ∀ name ∈ names, IsName name) : loud (ofSegments names).segments = names :=
  loud_segments_of_names hnames rfl

theorem components_ofSegments {names : List Segment}
    (hnames : ∀ name ∈ names, IsName name) :
    (ofSegments names).components = .root :: names.map .name :=
  components_of_names hnames rfl

@[simp] theorem anchor?_ofSegments (names : List Segment) :
    (ofSegments names).anchor? = some .root := by
  simp [anchor?, ofSegments]

theorem anchorBytes_ofSegments (names : List Segment) :
    (ofSegments names).anchorBytes = [separator] := by
  rw [anchorBytes, anchor?_ofSegments]
  rfl

theorem body_ofSegments (names : List Segment) :
    (ofSegments names).body = (joinSegments names).splitOn separator := by
  rw [body, anchor?_ofSegments]
  rfl

theorem IsNormal.exists_names {p : Path} (h : IsNormal p) :
    ∃ names : List Segment, (∀ name ∈ names, IsName name) ∧ p = ofSegments names := by
  obtain ⟨names, hnames, hbytes⟩ := h
  refine ⟨names, hnames, ?_⟩
  cases p
  exact congrArg Path.mk hbytes

/-- A place has one normal path. -/
theorem IsNormal.eq_of_sameAs {p q : Path} (hp : IsNormal p) (hq : IsNormal q)
    (h : p.SameAs q) : p = q := by
  obtain ⟨names, hnames, hbytes⟩ := hp
  obtain ⟨names', hnames', hbytes'⟩ := hq
  have hcomponents : names.map Component.name = names'.map Component.name := by
    have hsame : p.components = q.components := h
    rw [components_of_names hnames hbytes, components_of_names hnames' hbytes'] at hsame
    exact (List.cons.inj hsame).2
  have heq : names = names' :=
    (List.map_inj_right fun _ _ hname => Component.name.inj hname).mp hcomponents
  cases p
  cases q
  simp_all

/-! ## Putting a name at the end -/

theorem joinSegments_concat (names : List Segment) (name : Segment) (h : names ≠ []) :
    joinSegments (names ++ [name]) = joinSegments names ++ separator :: name := by
  induction names with
  | nil => exact absurd rfl h
  | cons first names ih =>
    cases names with
    | nil => simp [joinSegments, List.intercalate_cons_cons, List.intercalate_singleton]
    | cons second names =>
      have hrest := ih (by simp)
      simp only [joinSegments, List.cons_append, List.intercalate_cons_cons] at hrest ⊢
      simp only [hrest, List.append_assoc, List.cons_append, List.nil_append]

/-- The octets of a normal path end with those of its last name, so they end with a
separator only at the root. -/
theorem getLast?_ofSegments (front : List Segment) {last : Segment} (h : IsName last) :
    (ofSegments (front ++ [last])).bytes.getLast? ≠ some separator := by
  have hends : ∃ before, (ofSegments (front ++ [last])).bytes = before ++ last := by
    by_cases hne : front = []
    · subst hne
      exact ⟨[separator], by simp [ofSegments, joinSegments, List.intercalate_singleton]⟩
    · refine ⟨separator :: joinSegments front ++ [separator], ?_⟩
      simp [ofSegments, joinSegments_concat front last hne]
  obtain ⟨before, hbefore⟩ := hends
  rw [hbefore, List.getLast?_append]
  cases hlast : last.getLast? with
  | none => exact absurd (List.getLast?_eq_none_iff.mp hlast) h.ne_nil
  | some b =>
    intro hb
    obtain rfl : b = separator := Option.some.inj hb
    exact h.no_separator (List.mem_of_getLast? hlast)

theorem join_ofSegments {names : List Segment} {name : Segment}
    (hnames : ∀ name ∈ names, IsName name) (h : IsName name) :
    (ofSegments names).join ⟨name⟩ = ofSegments (names ++ [name]) := by
  unfold join
  rw [if_neg (by simp [h.isAbsolute])]
  -- at the root the separator stands already; elsewhere one is put in
  rcases List.eq_nil_or_concat names with rfl | ⟨front, last, rfl⟩
  · rw [if_pos (.inr rfl)]
    simp [ofSegments, joinSegments, List.intercalate_singleton]
  · rw [List.concat_eq_append] at hnames ⊢
    have hlast : IsName last := hnames last (by simp)
    rw [if_neg (not_or.mpr ⟨by simp [ofSegments], getLast?_ofSegments front hlast⟩)]
    rw [ofSegments, ofSegments, joinSegments_concat (front ++ [last]) name (by simp)]
    rfl

/-! ## Taking the last name away -/

theorem dropNoiseEnd_of_names {names : List Segment}
    (hnames : ∀ name ∈ names, IsName name) : dropNoiseEnd names = names := by
  rcases List.eq_nil_or_concat names with rfl | ⟨front, last, rfl⟩
  · rfl
  · have hlast : isNoise last = false := (hnames last (by simp)).isNoise
    simp [dropNoiseEnd, hlast]

theorem parent?_ofSegments {names : List Segment}
    (hnames : ∀ name ∈ names, IsName name) :
    (ofSegments names).parent?
      = if names = [] then none else some (ofSegments names.dropLast) := by
  rw [parent?, body_ofSegments, anchorBytes_ofSegments, anchor?_ofSegments]
  cases names with
  | nil => rfl
  | cons name others =>
    have hfront : ∀ n ∈ (name :: others).dropLast, IsName n := fun n hn =>
      hnames n ((List.dropLast_sublist _).subset hn)
    rw [splitOn_joinSegments hnames (by simp), dropNoiseEnd_of_names hnames]
    simp [dropNoiseEnd_of_names hfront, ofSegments]

end CoverageRegistry.Path
