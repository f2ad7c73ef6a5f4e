import CoverageRegistry.Proofs.Path.Idempotence
import Mathlib.Data.List.Forall2

/-!
# Lexical noise

What becomes of a configured entry is its normal form or the kind of its error
(`resolve`), and it hangs on three things: whether the entry is blank, whether its text
opens at the root, and where the stack machine gets with its segments (`resolve_congr`).
So a piece that stands between two slashes and leaves every stack as it is can be put
in or left out (`resolve_insert`); `.`, the empty piece and a name with `..` after it
are such pieces. The machine never sees a backslash of the entry, so it cannot matter where one
stands for a slash (`cause_congr`).
-/

namespace CoverageRegistry

/-! ## Texts around a slash -/

namespace Text

/-- The character by which a text is read: every backslash as a slash. -/
def slashed (c : Char) : Char :=
  if c = '\\' then '/' else c

@[simp] theorem toList_normalizeSlashes (text : String) :
    (normalizeSlashes text).toList = text.toList.map slashed := by
  rw [normalizeSlashes, String.toList_ofList]
  rfl

@[simp] theorem isBlank_slashed (c : Char) : isBlank (slashed c) = isBlank c := by
  by_cases hc : c = '\\'
  · subst hc
    decide
  · rw [slashed, if_neg hc]

theorem map_slashed_of_notMem {cs : List Char} (h : '\\' ∉ cs) : cs.map slashed = cs := by
  have hsame : ∀ c ∈ cs, slashed c = id c := by
    intro c hc
    refine if_neg ?_
    rintro rfl
    exact h hc
  rw [List.map_congr_left hsame, List.map_id]

theorem trimList_map_slashed (cs : List Char) :
    trimList (cs.map slashed) = (trimList cs).map slashed := by
  have hblank : isBlank ∘ slashed = isBlank := funext isBlank_slashed
  have hstart : ∀ ds : List Char, trimStart (ds.map slashed) = (trimStart ds).map slashed := by
    intro ds
    rw [trimStart, List.dropWhile_map, hblank]
    rfl
  have hend : ∀ ds : List Char, trimEnd (ds.map slashed) = (trimEnd ds).map slashed := by
    intro ds
    have hreversed := hstart ds.reverse
    rw [trimStart, trimStart] at hreversed
    rw [trimEnd, trimEnd, ← List.map_reverse, hreversed, List.map_reverse]
  rw [trimList, trimList, hstart, hend]

end Text

/-! ## What becomes of an entry -/

/-- The kinds of errors, without the texts in them. -/
inductive PathError.Kind where
  | empty
  | relativeBase
  | escapesRoot
  deriving DecidableEq

/-- The kind of an error. -/
def PathError.kind : PathError → Kind
  | empty => .empty
  | relativeBase _ => .relativeBase
  | escapesRoot _ => .escapesRoot

/-- What becomes of an entry: its normal form, or the kind of its error. -/
def resolve (raw : String) (base : Path) : Except PathError.Kind Path :=
  (normalize raw base).mapError fun error => error.cause.kind

/-- The text of an entry that is read: without the blanks at its ends, and with
slashes only. -/
def entryText (raw : String) : String :=
  normalizeSlashes (Text.trim raw)

@[simp] theorem toList_entryText (raw : String) :
    (entryText raw).toList = (Text.trimList raw.toList).map Text.slashed := by
  rw [entryText, Text.toList_normalizeSlashes, Text.toList_trim]

theorem entryText_eq_empty_iff {raw : String} : entryText raw = "" ↔ Text.trim raw = "" := by
  rw [← String.toList_inj, ← String.toList_inj, entryText, Text.toList_normalizeSlashes]
  exact List.map_eq_nil_iff

open StackMachine

theorem eq_empty_of_encode_eq_nil {text : String} (h : Utf8.encode text.toList = []) :
    text = "" := by
  rw [← Utf8.encode_nil] at h
  exact String.toList_inj.mp (Utf8.encode_injective h)

/-- The error or the normal form of an entry that is not blank. -/
theorem normalize_eq_run (raw : String) (base : Path) :
    normalize raw base =
      if entryText raw = "" then .error ⟨raw, .empty⟩
      else if ¬ OpensAtRoot (entryText raw) ∧ base.isAbsolute = false then
        .error ⟨raw, .relativeBase base.display⟩
      else
        match run (input (entryText raw) base) with
        | none => .error ⟨raw, .escapesRoot (entryText raw)⟩
        | some stack => .ok (Path.ofSegments stack) := by
  rw [normalize_eq]
  simp only [entryText_eq_empty_iff]
  by_cases hblank : Text.trim raw = ""
  · rw [if_pos hblank, if_pos hblank]
  · have hbytes : ¬ (Path.ofText (Text.trim raw)).bytes = [] :=
      fun h => hblank (eq_empty_of_encode_eq_nil h)
    rw [if_neg hblank, if_neg hblank, normalizePath_eq, if_neg hbytes, slashedText_ofText,
      ← entryText]
    generalize entryText raw = text
    split
    · rfl
    · cases run (input text base) <;> rfl

/-- Entries that open alike and take the machine to the same place have the same normal
form or the same kind of error. -/
theorem resolve_congr {raw raw' : String} {base : Path}
    (hblank : entryText raw = "" ↔ entryText raw' = "")
    (hroot : OpensAtRoot (entryText raw) ↔ OpensAtRoot (entryText raw'))
    (hrun : run (input (entryText raw) base) = run (input (entryText raw') base)) :
    resolve raw base = resolve raw' base := by
  rw [resolve, resolve, normalize_eq_run, normalize_eq_run]
  simp only [hblank, hroot, hrun]
  generalize entryText raw' = text'
  generalize entryText raw = text
  split
  · rfl
  · split
    · rfl
    · cases run (input text' base) <;> rfl

namespace StackMachine

/-! ## Segments of texts -/

/-- The segments that the characters between slashes spell. -/
def segmentsOf (cs : List Char) : List Segment :=
  (cs.splitOn '/').map Utf8.encode

theorem segmentsOf_append_slash (xs ys : List Char) :
    segmentsOf (xs ++ '/' :: ys) = segmentsOf xs ++ segmentsOf ys := by
  rw [segmentsOf, List.splitOn_append_cons_self, List.map_append]
  rfl

theorem segmentsOf_of_notMem {cs : List Char} (h : '/' ∉ cs) :
    segmentsOf cs = [Utf8.encode cs] := by
  rw [segmentsOf, List.splitOn_eq_singleton h, List.map_singleton]

/-- The segments in front of those of a text: the ones of the base, unless the text
opens at the root. -/
def lead (text : String) (base : Path) : List Segment :=
  if OpensAtRoot text then [] else base.segments

theorem input_eq (text : String) (base : Path) :
    input text base = Path.loud (lead text base ++ segmentsOf text.toList) := by
  rw [input, lead]
  split <;> rfl

/-! ## Pieces that change nothing -/

/-- Segments that leave every stack as it is. -/
def Idle (segments : List Segment) : Prop :=
  ∀ stack : List Segment, (Path.loud segments).foldlM step stack = some stack

/-- Idle segments can stand anywhere. -/
theorem run_insert {piece : List Segment} (h : Idle piece) (before after : List Segment) :
    run (Path.loud (before ++ (piece ++ after))) = run (Path.loud (before ++ after)) := by
  rw [run, run, Path.loud_append, Path.loud_append, Path.loud_append, List.foldlM_append,
    List.foldlM_append]
  congr 1
  funext stack
  rw [List.foldlM_append, h stack]
  rfl

theorem idle_of_loud_eq_nil {segments : List Segment} (h : Path.loud segments = []) :
    Idle segments := by
  intro stack
  rw [h]
  rfl

/-- A name that is put on the stack and taken away again. -/
theorem idle_name_back {name : Segment} (h : Path.IsName name) : Idle [name, back] := by
  intro stack
  have hloud : Path.loud [name, back] = [name, back] := by
    simp [Path.loud, h.ne_nil, h.ne_here, back]
  have hput : step stack name = some (stack ++ [name]) := if_neg h.ne_parent
  have htake : step (stack ++ [name]) back = some stack := by
    rw [step, if_pos rfl, if_neg (by simp), List.dropLast_concat]
  rw [hloud, List.foldlM_cons, hput]
  show [back].foldlM step (stack ++ [name]) = some stack
  rw [List.foldlM_cons, htake]
  rfl

end StackMachine

/-- What stands between two slashes is not trimmed. -/
theorem toList_entryText_piece (u piece v : String) :
    (entryText (u ++ "/" ++ piece ++ "/" ++ v)).toList
      = (Text.trimStart u.toList).map Text.slashed ++ '/' ::
        (piece.toList.map Text.slashed ++ '/' :: (Text.trimEnd v.toList).map Text.slashed) := by
  have hslash : Text.isBlank '/' = false := by decide
  have hchars : (u ++ "/" ++ piece ++ "/" ++ v).toList
      = u.toList ++ '/' :: (piece.toList ++ '/' :: v.toList) := by simp
  rw [toList_entryText, hchars, Text.trimList_append_cons hslash,
    Text.trimEnd_append_cons hslash]
  simp [Text.slashed]

theorem toList_entryText_slash (u v : String) :
    (entryText (u ++ "/" ++ v)).toList
      = (Text.trimStart u.toList).map Text.slashed ++ '/' ::
        (Text.trimEnd v.toList).map Text.slashed := by
  have hslash : Text.isBlank '/' = false := by decide
  have hchars : (u ++ "/" ++ v).toList = u.toList ++ '/' :: v.toList := by simp
  rw [toList_entryText, hchars, Text.trimList_append_cons hslash]
  simp [Text.slashed]

/-- **A piece that leaves every stack as it is changes nothing** between two slashes,
whatever stands around it. -/
theorem resolve_insert {piece : String}
    (hpiece : Idle (segmentsOf (piece.toList.map Text.slashed))) (u v : String) (base : Path) :
    resolve (u ++ "/" ++ piece ++ "/" ++ v) base = resolve (u ++ "/" ++ v) base := by
  have hlong := toList_entryText_piece u piece v
  have hshort := toList_entryText_slash u v
  generalize (Text.trimStart u.toList).map Text.slashed = front at hlong hshort
  generalize (Text.trimEnd v.toList).map Text.slashed = rest at hlong hshort
  -- the text opens as `u` does, or with the slash after it
  have hroot : OpensAtRoot (entryText (u ++ "/" ++ piece ++ "/" ++ v))
      ↔ OpensAtRoot (entryText (u ++ "/" ++ v)) := by
    rw [OpensAtRoot, OpensAtRoot, hlong, hshort]
    cases front <;> rfl
  have hlead : lead (entryText (u ++ "/" ++ piece ++ "/" ++ v)) base
      = lead (entryText (u ++ "/" ++ v)) base := by
    simp only [lead, hroot]
  have hblank : entryText (u ++ "/" ++ piece ++ "/" ++ v) = ""
      ↔ entryText (u ++ "/" ++ v) = "" := by
    rw [← String.toList_inj, ← String.toList_inj, hlong, hshort]
    simp
  refine resolve_congr hblank hroot ?_
  rw [input_eq, input_eq, hlead, hlong, hshort, segmentsOf_append_slash,
    segmentsOf_append_slash, segmentsOf_append_slash]
  generalize lead (entryText (u ++ "/" ++ v)) base = before
  have hinsert := run_insert hpiece (before ++ segmentsOf front) (segmentsOf rest)
  rw [List.append_assoc, List.append_assoc] at hinsert
  exact hinsert

/-- Entries that are read as the same text have the same normal form or the same error,
apart from the entry that it names. -/
theorem cause_congr {raw raw' : String} (h : entryText raw = entryText raw') (base : Path) :
    (normalize raw base).mapError InvalidPath.cause
      = (normalize raw' base).mapError InvalidPath.cause := by
  rw [normalize_eq_run, normalize_eq_run, h]
  generalize entryText raw' = text
  split
  · rfl
  · split
    · rfl
    · cases run (input text base) <;> rfl

/-! ## Noise -/

/-- A name as it is written: not empty, neither `.` nor `..`, and without separators of
either kind. -/
structure IsWrittenName (name : String) : Prop where
  ne_empty : name ≠ ""
  no_slash : '/' ∉ name.toList
  no_backslash : '\\' ∉ name.toList
  ne_here : name ≠ "."
  ne_parent : name ≠ ".."

theorem IsWrittenName.isName {name : String} (h : IsWrittenName name) :
    Path.IsName (Utf8.encode name.toList) := by
  have hdiffers : ∀ other : String, name ≠ other →
      Utf8.encode name.toList ≠ Utf8.encode other.toList := by
    intro other hother hencode
    exact hother (String.toList_inj.mp (Utf8.encode_injective hencode))
  refine ⟨hdiffers "" h.ne_empty, hdiffers "." h.ne_here, hdiffers ".." h.ne_parent, ?_⟩
  intro hmem
  obtain ⟨c, hc, hseparator⟩ := List.mem_flatMap.mp hmem
  refine Utf8.separator_notMem_encodeChar ?_ hseparator
  rintro rfl
  exact h.no_slash hc

/-- A name and `..` after it are idle. -/
theorem IsWrittenName.idle {name : String} (h : IsWrittenName name) :
    Idle (segmentsOf ((name ++ "/..").toList.map Text.slashed)) := by
  have hchars : (name ++ "/..").toList.map Text.slashed
      = name.toList ++ '/' :: ['.', '.'] := by
    rw [String.toList_append, List.map_append, Text.map_slashed_of_notMem h.no_backslash]
    rfl
  rw [hchars, segmentsOf_append_slash, segmentsOf_of_notMem h.no_slash]
  exact idle_name_back h.isName

/-- Two characters are the same, or one is a slash and the other a backslash. -/
def SameOrSeparators (c d : Char) : Prop :=
  c = d ∨ c = '/' ∧ d = '\\' ∨ c = '\\' ∧ d = '/'

instance (c d : Char) : Decidable (SameOrSeparators c d) :=
  inferInstanceAs (Decidable (_ ∨ _))

/-- Texts that differ only in the kinds of their separators are read as the same text. -/
theorem entryText_congr {raw raw' : String}
    (h : List.Forall₂ SameOrSeparators raw.toList raw'.toList) :
    entryText raw = entryText raw' := by
  have hread : raw.toList.map Text.slashed = raw'.toList.map Text.slashed := by
    rw [← List.forall₂_eq_eq_eq, List.forall₂_map_left_iff, List.forall₂_map_right_iff]
    refine h.imp fun c d hcd => ?_
    rcases hcd with rfl | ⟨rfl, rfl⟩ | ⟨rfl, rfl⟩
    · rfl
    · decide
    · decide
  rw [← String.toList_inj, toList_entryText, toList_entryText, ← Text.trimList_map_slashed,
    ← Text.trimList_map_slashed, hread]

/-- **Normalization is insensitive to lexical noise.** Between two texts, whatever they
are, a name with `..` after it, a `.` and a doubled separator change neither the normal
form nor the kind of error, and so cannot save a path from leaving the root or make it
leave. Nor does it matter, in the whole entry, which slashes are written as backslashes:
the normal form is the same, or the cause of the error with the texts in it. -/
theorem resolve_noise (base : Path) :
    (∀ u name v : String, IsWrittenName name →
        resolve (u ++ "/" ++ name ++ "/../" ++ v) base = resolve (u ++ "/" ++ v) base)
      ∧ (∀ u v : String, resolve (u ++ "/./" ++ v) base = resolve (u ++ "/" ++ v) base)
      ∧ (∀ u v : String, resolve (u ++ "//" ++ v) base = resolve (u ++ "/" ++ v) base)
      ∧ ∀ raw raw' : String, List.Forall₂ SameOrSeparators raw.toList raw'.toList →
        (normalize raw base).mapError InvalidPath.cause
          = (normalize raw' base).mapError InvalidPath.cause := by
  refine ⟨?_, ?_, ?_, ?_⟩
  · intro u name v hname
    have htext : u ++ "/" ++ name ++ "/../" ++ v = u ++ "/" ++ (name ++ "/..") ++ "/" ++ v := by
      simp [← String.toList_inj]
    rw [htext]
    exact resolve_insert hname.idle u v base
  · intro u v
    have htext : u ++ "/./" ++ v = u ++ "/" ++ "." ++ "/" ++ v := by
      simp [← String.toList_inj]
    rw [htext]
    exact resolve_insert (idle_of_loud_eq_nil (by decide)) u v base
  · intro u v
    have htext : u ++ "//" ++ v = u ++ "/" ++ "" ++ "/" ++ v := by
      simp [← String.toList_inj]
    rw [htext]
    exact resolve_insert (idle_of_loud_eq_nil (by decide)) u v base
  · intro raw raw' h
    exact cause_congr (entryText_congr h) base

/-- A blank for a name, in an entry that leaves the root with it and without it, and
separators of both kinds. -/
theorem resolve_noise_blank_name :
    let base := Path.ofText "/repo"
    resolve (" .." ++ "/" ++ " " ++ "/../" ++ "../x ") base = .error .escapesRoot
      ∧ (normalize "a\\b/..\\c" base).mapError InvalidPath.cause
        = .ok (.ofText "/repo/a/c") := by
  intro base
  obtain ⟨hname, -, -, hseparators⟩ := resolve_noise base
  have hwritten : IsWrittenName " " :=
    ⟨by decide, by decide, by decide, by decide, by decide⟩
  have hsame : List.Forall₂ SameOrSeparators "a\\b/..\\c".toList "a/b\\../c".toList := by
    decide +kernel
  have hleaves : resolve (" .." ++ "/" ++ "../x ") base = .error .escapesRoot := rfl
  have hstays : normalize "a/b\\../c" base = .ok (.ofText "/repo/a/c") := rfl
  refine ⟨(hname " .." " " "../x " hwritten).trans hleaves, ?_⟩
  rw [hseparators _ _ hsame, hstays]
  rfl

end CoverageRegistry
