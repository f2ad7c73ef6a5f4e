import CoverageRegistry.Proofs.Path.Normal

/-!
# Normalization as a stack machine

A path is normalized by a machine that reads segments from left to right: a name
is put on a stack, `..` takes the last name away, and nothing else happens. The
machine stops when a `..` finds the stack empty. This module shows that building
the octets of a path, component by component, does exactly this (`collapse?_join`):
the octets built so far spell the names on the stack. What is left on the stack is a
normal path (`isNormal_of_run`).
-/

namespace CoverageRegistry

/-- The text that is normalized: the lossy text of a path, every backslash
replaced. -/
def slashedText (path : Path) : String :=
  normalizeSlashes path.display

namespace StackMachine

/-! ## The machine -/

/-- The segment `..`. -/
def back : Segment := [0x2E, 0x2E]

/-- One segment: `..` takes the last name away and fails on the empty stack; any
other segment is put at the end. -/
def step (stack : List Segment) (segment : Segment) : Option (List Segment) :=
  if segment = back then
    if stack = [] then none else some stack.dropLast
  else some (stack ++ [segment])

/-- The stack after all segments, from the empty one. -/
def run (segments : List Segment) : Option (List Segment) :=
  segments.foldlM step []

/-- Some `..` meets an empty stack. -/
def Underflows (segments : List Segment) : Prop :=
  ∃ before rest, segments = before ++ back :: rest ∧ run before = some []

/-- The octets of the pieces between the slashes of a text. -/
def textSegments (text : String) : List Segment :=
  (text.toList.splitOn '/').map Utf8.encode

/-- Whether a text starts with a slash. -/
def OpensAtRoot (text : String) : Prop :=
  text.toList.head? = some '/'

instance (text : String) : Decidable (OpensAtRoot text) :=
  inferInstanceAs (Decidable (_ = _))

/-- What the machine reads: the segments of the text, after those of the base
where the text does not start at the root, without the empty ones and the `.`. -/
def input (text : String) (base : Path) : List Segment :=
  Path.loud
    (if OpensAtRoot text then textSegments text
     else base.segments ++ textSegments text)

/-! ## The machine and the octets

The path that is built spells the names on the stack: this is the invariant that one
component preserves. -/

/-- A segment that is read: not noise, and without a separator in it. -/
def IsLoud (segment : Segment) : Prop :=
  segment ≠ [] ∧ segment ≠ [0x2E] ∧ Path.separator ∉ segment

theorem IsLoud.isName {segment : Segment} (h : IsLoud segment) (hback : segment ≠ back) :
    Path.IsName segment :=
  ⟨h.1, h.2.1, hback, h.2.2⟩

theorem isLoud_of_mem_segments {p : Path} {segment : Segment}
    (h : segment ∈ Path.loud p.segments) : IsLoud segment := by
  simp only [Path.loud, List.mem_filter, Bool.decide_and, Bool.and_eq_true,
    decide_eq_true_eq] at h
  obtain ⟨hmem, hne, hhere⟩ := h
  exact ⟨hne, hhere, Path.separator_notMem_of_mem_segments hmem⟩

/-- A step leaves names on the stack. -/
theorem isName_step {stack next : List Segment} {segment : Segment}
    (hstack : ∀ name ∈ stack, Path.IsName name) (hsegment : IsLoud segment)
    (h : step stack segment = some next) : ∀ name ∈ next, Path.IsName name := by
  intro name hname
  unfold step at h
  split at h
  · split at h
    · cases h
    · obtain rfl : stack.dropLast = next := Option.some.inj h
      exact hstack name ((List.dropLast_sublist stack).subset hname)
  · rename_i hback
    obtain rfl : stack ++ [segment] = next := Option.some.inj h
    rcases List.mem_append.mp hname with hname | hname
    · exact hstack name hname
    · rw [List.mem_singleton.mp hname]
      exact hsegment.isName hback

/-- One component, applied to the octets of the names, does one step. -/
theorem follow?_ofSegments {stack : List Segment} {segment : Segment}
    (hstack : ∀ name ∈ stack, Path.IsName name) (hsegment : IsLoud segment) :
    Path.follow? (Path.ofSegments stack) (Path.componentOf segment)
      = (step stack segment).map Path.ofSegments := by
  by_cases hback : segment = back
  · have hc : Path.componentOf segment = .parent := if_pos hback
    rw [hc, Path.follow?, Path.parent?_ofSegments hstack, step, if_pos hback]
    by_cases hempty : stack = []
    · rw [if_pos hempty, if_pos hempty]
      rfl
    · rw [if_neg hempty, if_neg hempty]
      rfl
  · have hc : Path.componentOf segment = .name segment := if_neg hback
    rw [hc, Path.follow?, Path.join_ofSegments hstack (hsegment.isName hback), step,
      if_neg hback]
    rfl

theorem foldlM_follow? (segments : List Segment) :
    ∀ stack : List Segment, (∀ name ∈ stack, Path.IsName name) →
    (∀ segment ∈ segments, IsLoud segment) →
    (segments.map Path.componentOf).foldlM Path.follow? (Path.ofSegments stack)
      = (segments.foldlM step stack).map Path.ofSegments := by
  induction segments with
  | nil => intro stack _ _; rfl
  | cons segment segments ih =>
    intro stack hstack hsegments
    have hsegment : IsLoud segment := hsegments segment List.mem_cons_self
    rw [List.map_cons, List.foldlM_cons, List.foldlM_cons,
      follow?_ofSegments hstack hsegment]
    -- where the step goes on, it leaves names, so the invariant holds of the rest
    cases hnext : step stack segment with
    | none => rfl
    | some next =>
      exact ih next (isName_step hstack hsegment hnext) fun s hs =>
        hsegments s (List.mem_cons_of_mem _ hs)

/-- What the components of an absolute path build is what the machine leaves of its
segments. -/
theorem collapse?_components {p : Path} (h : p.isAbsolute = true) :
    Path.collapse? p.components = (run (Path.loud p.segments)).map Path.ofSegments := by
  have hroot : Path.follow? ⟨[]⟩ .root = some (Path.ofSegments []) := rfl
  rw [Path.components_of_isAbsolute h, Path.collapse?, List.foldlM_cons, hroot]
  exact foldlM_follow? _ [] (by simp) fun _ => isLoud_of_mem_segments

theorem segments_ofText (text : String) :
    (Path.ofText text).segments = textSegments text :=
  Utf8.splitOn_encode text.toList

theorem isAbsolute_ofText (text : String) :
    (Path.ofText text).isAbsolute = true ↔ OpensAtRoot text := by
  rw [Path.isAbsolute_iff]
  exact Utf8.head?_encode_eq_separator text.toList

/-- What the components of the joined path build is what the machine leaves of its
input. -/
theorem collapse?_join {text : String} {base : Path}
    (h : OpensAtRoot text ∨ base.isAbsolute = true) :
    Path.collapse? (base.join (Path.ofText text)).components
      = (run (input text base)).map Path.ofSegments := by
  by_cases ht : OpensAtRoot text
  · have habs := (isAbsolute_ofText text).mpr ht
    have hjoin : base.join (Path.ofText text) = Path.ofText text := by
      simp [Path.join, habs]
    rw [hjoin, collapse?_components habs, segments_ofText, input, if_pos ht]
  · have hbase := h.resolve_left ht
    have hrel : (Path.ofText text).isAbsolute = false := by
      rw [Bool.eq_false_iff]
      exact fun hc => ht ((isAbsolute_ofText text).mp hc)
    rw [collapse?_components (Path.isAbsolute_join hbase),
      Path.loud_segments_join hbase hrel, segments_ofText, input, if_neg ht,
      Path.loud_append]

/-! ## Underflow -/

theorem foldlM_step_eq_none_iff (segments : List Segment) :
    ∀ stack : List Segment,
    segments.foldlM step stack = none ↔
      ∃ before rest, segments = before ++ back :: rest
        ∧ before.foldlM step stack = some [] := by
  induction segments with
  | nil => intro stack; simp
  | cons segment segments ih =>
    intro stack
    rw [List.foldlM_cons]
    cases hs : step stack segment with
    | none =>
      -- only a `..` on the empty stack fails at once
      have hfail : segment = back ∧ stack = [] := by
        unfold step at hs
        split at hs
        · split at hs
          · exact ⟨‹_›, ‹_›⟩
          · cases hs
        · cases hs
      obtain ⟨rfl, rfl⟩ := hfail
      exact ⟨fun _ => ⟨[], segments, rfl, rfl⟩, fun _ => rfl⟩
    | some next =>
      show segments.foldlM step next = none ↔ _
      rw [ih next]
      constructor
      · rintro ⟨before, rest, rfl, hb⟩
        exact ⟨segment :: before, rest, rfl, by rw [List.foldlM_cons, hs]; exact hb⟩
      · rintro ⟨before, rest, heq, hb⟩
        cases before with
        | nil =>
          obtain ⟨rfl, rfl⟩ := List.cons.inj heq
          obtain rfl : stack = [] := Option.some.inj hb
          simp [step] at hs
        | cons b before =>
          obtain ⟨rfl, rfl⟩ := List.cons.inj heq
          rw [List.foldlM_cons, hs] at hb
          exact ⟨before, rest, rfl, hb⟩

theorem run_eq_none_iff (segments : List Segment) :
    run segments = none ↔ Underflows segments :=
  foldlM_step_eq_none_iff segments []

/-! ## What is left on the stack -/

theorem isLoud_of_mem_input {text : String} {base : Path} {segment : Segment}
    (h : segment ∈ input text base) : IsLoud segment := by
  rw [input, ← segments_ofText] at h
  split at h
  · exact isLoud_of_mem_segments h
  · rw [Path.loud_append] at h
    rcases List.mem_append.mp h with h | h
    · exact isLoud_of_mem_segments h
    · exact isLoud_of_mem_segments h

theorem isName_foldlM_step {segments : List Segment} :
    ∀ {stack next : List Segment}, (∀ name ∈ stack, Path.IsName name) →
      (∀ segment ∈ segments, IsLoud segment) → segments.foldlM step stack = some next →
        ∀ name ∈ next, Path.IsName name := by
  induction segments with
  | nil =>
    intro stack next hstack _ h
    obtain rfl : stack = next := Option.some.inj h
    exact hstack
  | cons segment segments ih =>
    intro stack next hstack hsegments h
    have hsegment : IsLoud segment := hsegments segment List.mem_cons_self
    rw [List.foldlM_cons] at h
    cases hstep : step stack segment with
    | none => rw [hstep] at h; cases h
    | some middle =>
      rw [hstep] at h
      exact ih (isName_step hstack hsegment hstep)
        (fun s hs => hsegments s (List.mem_cons_of_mem _ hs)) h

/-- What the machine leaves spells a normal path. -/
theorem isNormal_of_run {text : String} {base : Path} {stack : List Segment}
    (h : run (input text base) = some stack) :
    Path.IsNormal (Path.ofSegments stack) :=
  ⟨stack, isName_foldlM_step (by simp) (fun _ => isLoud_of_mem_input) h, rfl⟩

end StackMachine

/-! ## Normalization -/

open StackMachine in
/-- The result of normalizing a path, case by case. -/
theorem normalizePath_eq (path base : Path) :
    normalizePath path base =
      if path.bytes = [] then .error .empty
      else if ¬ OpensAtRoot (slashedText path) ∧ base.isAbsolute = false then
        .error (.relativeBase base.display)
      else
        match run (input (slashedText path) base) with
        | none => .error (.escapesRoot (slashedText path))
        | some stack =>
            .ok ⟨Path.separator :: [Path.separator].intercalate stack⟩ := by
  rw [normalizePath]
  simp only [show normalizeSlashes path.display = slashedText path from rfl]
  generalize slashedText path = text
  by_cases hempty : path.bytes = []
  · rw [if_pos hempty, if_pos hempty]
  rw [if_neg hempty, if_neg hempty]
  -- there is a root to start from, in the text or in the base, or there is none
  by_cases hstart : OpensAtRoot text ∨ base.isAbsolute = true
  · have habs : ¬ (!(Path.ofText text).isAbsolute && !base.isAbsolute) = true := by
      rcases hstart with ht | hb
      · simp [(isAbsolute_ofText text).mpr ht]
      · simp [hb]
    have hrel : ¬ (¬ OpensAtRoot text ∧ base.isAbsolute = false) := by
      rintro ⟨ht, hb⟩
      rcases hstart with h | h
      · exact ht h
      · rw [hb] at h; cases h
    rw [if_neg habs, if_neg hrel, collapse?_join hstart]
    cases run (input text base) <;> rfl
  · rw [not_or, Bool.not_eq_true] at hstart
    have habs : (Path.ofText text).isAbsolute = false := by
      rw [Bool.eq_false_iff]
      exact fun hc => hstart.1 ((isAbsolute_ofText text).mp hc)
    rw [if_pos hstart, if_pos (by simp [habs, hstart.2])]

theorem isNormal_of_normalizePath {path base c : Path}
    (h : normalizePath path base = .ok c) : c.IsNormal := by
  rw [normalizePath_eq] at h
  split at h
  · cases h
  · split at h
    · cases h
    · split at h
      · cases h
      · rename_i stack hrun
        cases h
        exact StackMachine.isNormal_of_run hrun

/-- A blank entry is empty; any other is normalized without the blanks at its
ends. The error names the entry with them. -/
theorem normalize_eq (raw : String) (base : Path) :
    normalize raw base =
      if Text.trim raw = "" then .error ⟨raw, .empty⟩
      else
        (normalizePath (Path.ofText (Text.trim raw)) base).mapError
          fun cause => ⟨raw, cause⟩ := by
  unfold normalize
  by_cases hblank : Text.trim raw = ""
  · have hbytes : (Path.ofText "").bytes = [] := by simp [Path.ofText]
    rw [if_pos hblank, hblank, normalizePath_eq, if_pos hbytes]
    rfl
  · rw [if_neg hblank]

theorem isNormal_of_normalize {raw : String} {base c : Path}
    (h : normalize raw base = .ok c) : c.IsNormal := by
  unfold normalize at h
  cases hn : normalizePath (Path.ofText (Text.trim raw)) base with
  | error cause => rw [hn] at h; cases h
  | ok c' =>
    rw [hn] at h
    cases h
    exact isNormal_of_normalizePath hn

/-- **Normalization is the segment stack machine**: it fails on the path without
octets, then on a relative path with a relative base, then exactly when some `..`
meets an empty stack, and otherwise spells the stack that is left. A configured
entry is normalized without the blanks at its ends, and its error names it as it
was written. Every result is a normal path. -/
theorem normalization_eq_stackMachine :
    (∀ path base : Path,
      normalizePath path base =
        if path.bytes = [] then .error .empty
        else if ¬ StackMachine.OpensAtRoot (slashedText path)
            ∧ base.isAbsolute = false then
          .error (.relativeBase base.display)
        else
          match StackMachine.run (StackMachine.input (slashedText path) base) with
          | none => .error (.escapesRoot (slashedText path))
          | some stack =>
              .ok ⟨Path.separator :: [Path.separator].intercalate stack⟩)
      ∧ (∀ segments, StackMachine.run segments = none
          ↔ StackMachine.Underflows segments)
      ∧ (∀ (raw : String) (base : Path),
          normalize raw base =
            if Text.trim raw = "" then .error ⟨raw, .empty⟩
            else
              (normalizePath (Path.ofText (Text.trim raw)) base).mapError
                fun cause => ⟨raw, cause⟩)
      ∧ (∀ path base c : Path, normalizePath path base = .ok c → c.IsNormal)
      ∧ ∀ (raw : String) (base c : Path), normalize raw base = .ok c → c.IsNormal :=
  ⟨normalizePath_eq, StackMachine.run_eq_none_iff, normalize_eq,
    fun _ _ _ => isNormal_of_normalizePath, fun _ _ _ => isNormal_of_normalize⟩

/-- Backslashes, `..`, `.`, a doubled separator and blanks at the ends. -/
theorem normalization_eq_stackMachine_backslash :
    let p := Path.ofText "/p/a/c/d.xml"
    normalize " a\\b/./../c//d.xml " (.ofText "/p") = .ok p ∧ p.IsNormal := by
  intro p
  have hok : normalize " a\\b/./../c//d.xml " (.ofText "/p") = .ok p := rfl
  obtain ⟨-, -, -, -, hnormal⟩ := normalization_eq_stackMachine
  exact ⟨hok, hnormal _ _ p hok⟩

end CoverageRegistry
