import CoverageRegistry.Path.Normalize

/-!
# Segments of paths

What stands between the separators of a path, and how the components are made of
it. Three facts carry the rest of the theory of paths:

* encoding a text commutes with splitting it at its slashes
  (`Utf8.splitOn_encode`), so the segments of a text are the segments of its
  octets;
* the components of an absolute path are the root and its segments without noise
  (`components_of_isAbsolute`);
* the segments of a continued path are those of the base and then those of the
  rest, again up to noise (`loudSegments_join`).
-/

namespace CoverageRegistry

/-! ## Pieces of a list -/

/-- The pieces between the separators of a list hold nothing else than the list. -/
theorem mem_of_mem_splitOn {α : Type} [BEq α] [LawfulBEq α] {a x : α} {xs piece : List α}
    (hpiece : piece ∈ xs.splitOn a) (hx : x ∈ piece) : x ∈ xs := by
  have hjoined : ∀ pieces : List (List α), piece ∈ pieces → x ∈ [a].intercalate pieces := by
    intro pieces
    induction pieces with
    | nil => intro h; cases h
    | cons first pieces ih =>
      intro h
      by_cases hlast : pieces = []
      · subst hlast
        rw [List.mem_singleton.mp h] at hx
        simpa [List.intercalate_singleton] using hx
      · rw [List.intercalate_cons_of_ne_nil hlast]
        rcases List.mem_cons.mp h with rfl | h
        · simp [hx]
        · simp [ih h]
  have hxs : [a].intercalate (xs.splitOn a) = xs := List.intercalate_splitOn a
  rw [← hxs]
  exact hjoined _ hpiece

/-- No piece between the separators of a list holds a separator. -/
theorem notMem_of_mem_splitOn {α : Type} [BEq α] [LawfulBEq α] {a : α} {xs : List α} :
    ∀ {piece : List α}, piece ∈ xs.splitOn a → a ∉ piece := by
  induction xs with
  | nil =>
    intro piece h
    rw [List.splitOn_nil, List.mem_singleton] at h
    simp [h]
  | cons x xs ih =>
    intro piece h
    rw [List.splitOn_cons_eq_if_modifyHead] at h
    by_cases hx : x = a
    · simp only [hx, beq_self_eq_true, if_true, List.mem_cons] at h
      rcases h with rfl | h
      · simp
      · exact ih h
    · rw [beq_false_of_ne hx] at h
      cases hs : xs.splitOn a with
      | nil => exact absurd hs (List.splitOn_ne_nil _ _)
      | cons first others =>
        rw [hs] at h ih
        simp only [Bool.false_eq_true, if_false, List.modifyHead_cons,
          List.mem_cons] at h
        rcases h with rfl | h
        · have hfirst := ih (List.mem_cons_self)
          simp [Ne.symm hx, hfirst]
        · exact ih (List.mem_cons_of_mem _ h)

namespace Utf8

/-! ## The separator in UTF-8 -/

theorem encodeChar_slash : String.utf8EncodeChar '/' = [Path.separator] := by
  decide

/-- No octet of another character is the separator: a one-octet form is the
character itself, and the octets of the longer forms are `80` or above. -/
theorem separator_notMem_encodeChar {c : Char} (h : c ≠ '/') :
    Path.separator ∉ String.utf8EncodeChar c := by
  have hv : c.val.toNat ≠ 47 := by
    intro hc
    apply h
    apply Char.ext
    apply UInt32.toNat.inj
    exact hc
  have hsep : Path.separator.toNat = 47 := by decide
  fun_cases String.utf8EncodeChar
  all_goals
    simp only [List.mem_cons, List.not_mem_nil, or_false, ← UInt8.toNat_inj, hsep,
      UInt8.toNat_ofNat']
    omega

/-- Octets without a separator in front of a sequence belong to its first segment. -/
theorem splitOn_append_of_notMem {w : List UInt8} (h : Path.separator ∉ w)
    (bs : List UInt8) :
    (w ++ bs).splitOn Path.separator
      = (bs.splitOn Path.separator).modifyHead (w ++ ·) := by
  induction w with
  | nil => cases hs : bs.splitOn Path.separator <;> simp [hs]
  | cons b w ih =>
    simp only [List.mem_cons, not_or] at h
    have hb : (b == Path.separator) = false := beq_false_of_ne (Ne.symm h.1)
    rw [List.cons_append, List.splitOn_cons_eq_if_modifyHead, hb, ih h.2]
    cases bs.splitOn Path.separator <;> rfl

/-- The segments of an encoded text are the encoded pieces between its slashes. -/
theorem splitOn_encode (cs : List Char) :
    (encode cs).splitOn Path.separator = (cs.splitOn '/').map encode := by
  induction cs with
  | nil => rfl
  | cons c cs ih =>
    rw [encode_cons, List.splitOn_cons_eq_if_modifyHead]
    by_cases hc : c = '/'
    · subst hc
      rw [encodeChar_slash, List.singleton_append,
        List.splitOn_cons_eq_if_modifyHead, ih]
      simp
    · rw [splitOn_append_of_notMem (separator_notMem_encodeChar hc), ih,
        beq_false_of_ne hc]
      cases cs.splitOn '/' <;> simp

theorem head?_encode_eq_separator (cs : List Char) :
    (encode cs).head? = some Path.separator ↔ cs.head? = some '/' := by
  cases cs with
  | nil => simp
  | cons c cs =>
    by_cases hc : c = '/'
    · simp [hc, encodeChar_slash]
    · have hmem := separator_notMem_encodeChar hc
      cases he : String.utf8EncodeChar c with
      | nil => exact absurd he String.utf8EncodeChar_ne_nil
      | cons b w =>
        rw [he] at hmem
        simp only [List.mem_cons, not_or] at hmem
        simp [he, hc, Ne.symm hmem.1]

end Utf8

namespace Path

/-! ## Segments without noise -/

/-- The segments between the separators of a path. -/
def segments (p : Path) : List Segment :=
  p.bytes.splitOn separator

theorem separator_notMem_of_mem_segments {p : Path} {s : Segment}
    (h : s ∈ p.segments) : separator ∉ s :=
  notMem_of_mem_splitOn h

/-- The segments that mean something: the empty ones and the `.` are left out. -/
def loud (segments : List Segment) : List Segment :=
  segments.filter fun segment => segment ≠ [] ∧ segment ≠ [0x2E]

/-- The component of a segment that is not noise. -/
def componentOf (segment : Segment) : Component :=
  if segment = [0x2E, 0x2E] then .parent else .name segment

@[simp] theorem loud_append (xs ys : List Segment) :
    loud (xs ++ ys) = loud xs ++ loud ys :=
  List.filter_append ..

@[simp] theorem loud_nil : loud [] = [] := rfl

@[simp] theorem loud_nil_cons (xs : List Segment) : loud ([] :: xs) = loud xs := by
  simp [loud]

theorem filterMap_ofSegment? (xs : List Segment) :
    xs.filterMap Component.ofSegment? = (loud xs).map componentOf := by
  induction xs with
  | nil => rfl
  | cons x xs ih =>
    by_cases hx : x = [] ∨ x = [0x2E]
    · have hloud : loud (x :: xs) = loud xs := by
        rcases hx with rfl | rfl <;> simp [loud]
      simp [hloud, Component.ofSegment?, hx, ih]
    · have hloud : loud (x :: xs) = x :: loud xs := by
        simp only [not_or] at hx
        simp [loud, hx.1, hx.2]
      have hx' : Component.ofSegment? x = some (componentOf x) := by
        rw [Component.ofSegment?, if_neg hx, componentOf]
        split <;> rfl
      rw [List.filterMap_cons_some hx', hloud, List.map_cons, ih]

/-! ## Components of absolute paths -/

theorem isAbsolute_iff {p : Path} :
    p.isAbsolute = true ↔ p.bytes.head? = some separator := by
  simp [isAbsolute]

theorem exists_bytes_of_isAbsolute {p : Path} (h : p.isAbsolute = true) :
    ∃ rest, p.bytes = separator :: rest := by
  rw [isAbsolute_iff] at h
  cases hb : p.bytes with
  | nil => simp [hb] at h
  | cons b rest =>
    rw [hb, List.head?_cons, Option.some.injEq] at h
    exact ⟨rest, by rw [h]⟩

theorem loud_segments_of_bytes {p : Path} {rest : List UInt8}
    (h : p.bytes = separator :: rest) :
    loud p.segments = loud (rest.splitOn separator) := by
  rw [segments, h, List.splitOn_cons_eq_if_modifyHead]
  simp

/-- The components of an absolute path are the root and its segments without
noise. -/
theorem components_of_isAbsolute {p : Path} (h : p.isAbsolute = true) :
    p.components = .root :: (loud p.segments).map componentOf := by
  obtain ⟨rest, hb⟩ := exists_bytes_of_isAbsolute h
  have hanchor : p.anchor? = some .root := by simp [anchor?, hb]
  have hbody : p.body = rest.splitOn separator := by simp [body, hanchor, hb]
  rw [components, hanchor, hbody, filterMap_ofSegment?, loud_segments_of_bytes hb]
  rfl

/-! ## Continued paths -/

theorem isAbsolute_join {base rest : Path} (h : base.isAbsolute = true) :
    (base.join rest).isAbsolute = true := by
  obtain ⟨tail, hb⟩ := exists_bytes_of_isAbsolute h
  unfold join
  split
  · assumption
  · split <;> simp [isAbsolute, hb]

/-- A relative continuation adds its segments after those of an absolute base,
whether or not the base already ends with a separator. -/
theorem loud_segments_join {base rest : Path} (hbase : base.isAbsolute = true)
    (hrest : rest.isAbsolute = false) :
    loud (base.join rest).segments = loud base.segments ++ loud rest.segments := by
  obtain ⟨tail, hb⟩ := exists_bytes_of_isAbsolute hbase
  unfold join
  rw [if_neg (by simp [hrest])]
  split
  · rename_i hend
    have hlast : base.bytes.getLast? = some separator := by
      rcases hend with h | h
      · simp [hb] at h
      · exact h
    -- the separator at the end of the base is the one that joins
    obtain ⟨front, hfront⟩ := List.getLast?_eq_some_iff.mp hlast
    simp only [segments]
    rw [hfront, List.append_assoc, List.singleton_append,
      List.splitOn_append_cons_self, List.splitOn_append_cons_self]
    simp
  · simp only [segments]
    rw [List.splitOn_append_cons_self, loud_append]

end Path

end CoverageRegistry
