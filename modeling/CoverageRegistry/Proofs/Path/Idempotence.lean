import CoverageRegistry.Proofs.Path.StackMachine
import CoverageRegistry.Proofs.Text.Blank
import CoverageRegistry.Proofs.Text.Utf8

/-!
# Normalizing a normal path again

A normal path is shown as a text, and the text is normalized like any configured entry:
blanks at its ends go, backslashes become slashes, and octets that are not UTF-8 are no
longer what they were. So a path is its own normal form when its octets spell a text
without backslashes (`normalizePath_of_isNormal`), and only then, because such a text is
all that normalizing one can give (`isPlain_of_normalizePath`). An entry gives no other
octets of its own; only a base directory brings them in (`normalize_display_again`).
-/

namespace CoverageRegistry

/-! ## Texts -/

namespace Text

/-- Whether the last character of a text is blank. -/
def endsBlank (text : String) : Bool :=
  text.toList.getLast?.any isBlank

/-- A text between two characters that are not blank has nothing to trim. -/
theorem trim_of_not_blank {text : String} {c : Char} (hhead : text.toList.head? = some c)
    (hc : isBlank c = false) (hend : endsBlank text = false) : trim text = text := by
  have htrim : trimList text.toList = text.toList := by
    rw [trimList_eq_self_iff, hhead]
    refine ⟨by simpa using hc, fun d hd => ?_⟩
    rw [endsBlank, hd] at hend
    simpa using hend
  rw [trim, htrim, String.ofList_toList]

end Text

/-! ## Octets that spell a text without backslashes -/

/-- The octets of a text in which no backslash stands. -/
def IsPlain (bytes : List UInt8) : Prop :=
  ∃ cs : List Char, '\\' ∉ cs ∧ Utf8.encode cs = bytes

namespace IsPlain

theorem append {xs ys : List UInt8} (hxs : IsPlain xs) (hys : IsPlain ys) :
    IsPlain (xs ++ ys) := by
  obtain ⟨cs, hcs, rfl⟩ := hxs
  obtain ⟨ds, hds, rfl⟩ := hys
  exact ⟨cs ++ ds, by simp [hcs, hds], Utf8.encode_append cs ds⟩

theorem separator : IsPlain [Path.separator] :=
  ⟨['/'], by decide, by decide⟩

theorem joinSegments {segments : List Segment} (h : ∀ s ∈ segments, IsPlain s) :
    IsPlain (Path.joinSegments segments) := by
  induction segments with
  | nil => exact ⟨[], by simp, rfl⟩
  | cons s segments ih =>
    have hs := h s List.mem_cons_self
    have hrest := ih fun t ht => h t (List.mem_cons_of_mem _ ht)
    by_cases hlast : segments = []
    · subst hlast
      simpa [Path.joinSegments, List.intercalate_singleton] using hs
    · rw [Path.joinSegments, List.intercalate_cons_of_ne_nil hlast, List.append_assoc]
      exact hs.append (separator.append hrest)

theorem ofSegments {segments : List Segment} (h : ∀ s ∈ segments, IsPlain s) :
    IsPlain (Path.ofSegments segments).bytes :=
  separator.append (joinSegments h)

theorem of_mem_segments {p : Path} (h : IsPlain p.bytes) {s : Segment}
    (hs : s ∈ p.segments) : IsPlain s := by
  obtain ⟨cs, hcs, hbytes⟩ := h
  rw [Path.segments, ← hbytes, Utf8.splitOn_encode] at hs
  obtain ⟨piece, hpiece, rfl⟩ := List.mem_map.mp hs
  exact ⟨piece, fun hmem => hcs (mem_of_mem_splitOn hpiece hmem), rfl⟩

/-- A plain path shows its octets. -/
theorem ofText_display {p : Path} (h : IsPlain p.bytes) :
    Path.ofText p.display = p ∧ normalizeSlashes p.display = p.display := by
  obtain ⟨cs, hcs, hbytes⟩ := h
  have hdisplay : p.display = String.ofList cs := by
    rw [Path.display, ← hbytes, Utf8.decodeLossy_encode]
  rw [hdisplay, Path.ofText, normalizeSlashes, String.toList_ofList, hbytes]
  refine ⟨rfl, congrArg String.ofList ?_⟩
  calc cs.map (fun c => if c = '\\' then '/' else c)
      = cs.map id := List.map_congr_left fun c hc => if_neg <| by
          rintro rfl
          exact hcs hc
    _ = cs := List.map_id cs

theorem normalizeSlashes_text (text : String) :
    IsPlain (Path.ofText (normalizeSlashes text)).bytes := by
  refine ⟨_, fun h => ?_, rfl⟩
  rw [normalizeSlashes, String.toList_ofList] at h
  obtain ⟨c, -, hc⟩ := List.mem_map.mp h
  split at hc
  · cases hc
  · rename_i hne
    exact hne hc

end IsPlain

/-! ## One pass -/

namespace StackMachine

/-- What the machine leaves on the stack was there, or was read. -/
theorem mem_of_foldlM_step {segments : List Segment} {s : Segment} :
    ∀ {stack next : List Segment}, segments.foldlM step stack = some next → s ∈ next →
      s ∈ stack ∨ s ∈ segments := by
  induction segments with
  | nil =>
    intro stack next h hs
    obtain rfl : stack = next := Option.some.inj h
    exact .inl hs
  | cons segment segments ih =>
    intro stack next h hs
    rw [List.foldlM_cons] at h
    cases hstep : step stack segment with
    | none => rw [hstep] at h; cases h
    | some middle =>
      rw [hstep] at h
      rcases ih h hs with hmiddle | hrest
      · -- one step puts nothing on the stack but its segment
        unfold step at hstep
        split at hstep
        · split at hstep
          · cases hstep
          · obtain rfl : stack.dropLast = middle := Option.some.inj hstep
            exact .inl ((List.dropLast_sublist stack).subset hmiddle)
        · obtain rfl : stack ++ [segment] = middle := Option.some.inj hstep
          rcases List.mem_append.mp hmiddle with hmem | hmem
          · exact .inl hmem
          · exact .inr (List.mem_cons.mpr (.inl (List.mem_singleton.mp hmem)))
      · exact .inr (List.mem_cons_of_mem _ hrest)

/-- Names are put on the stack one after the other. -/
theorem foldlM_step_of_names {names : List Segment} (h : ∀ name ∈ names, Path.IsName name) :
    ∀ stack : List Segment, names.foldlM step stack = some (stack ++ names) := by
  induction names with
  | nil => intro stack; simp
  | cons name names ih =>
    intro stack
    have hname : name ≠ back := (h name List.mem_cons_self).ne_parent
    have hstep : step stack name = some (stack ++ [name]) := if_neg hname
    rw [List.foldlM_cons, hstep]
    show names.foldlM step (stack ++ [name]) = _
    rw [ih (fun other hother => h other (List.mem_cons_of_mem _ hother)), List.append_assoc]
    rfl

theorem isPlain_of_mem_input {text : String} {base : Path}
    (htext : IsPlain (Path.ofText text).bytes) (hstart : OpensAtRoot text ∨ IsPlain base.bytes)
    {s : Segment} (h : s ∈ input text base) : IsPlain s := by
  have hmem := (List.mem_filter.mp h).1
  rw [← segments_ofText] at hmem
  split at hmem
  · exact htext.of_mem_segments hmem
  · rename_i hrelative
    rcases List.mem_append.mp hmem with hmem | hmem
    · exact (hstart.resolve_left hrelative).of_mem_segments hmem
    · exact htext.of_mem_segments hmem

end StackMachine

open StackMachine

/-- The normal form of a path spells a text without backslashes, unless the base brings in
something else. -/
theorem isPlain_of_normalizePath {path base c : Path} (h : normalizePath path base = .ok c)
    (hstart : OpensAtRoot (slashedText path) ∨ IsPlain base.bytes) : IsPlain c.bytes := by
  rw [normalizePath_eq] at h
  split at h
  · cases h
  · split at h
    · cases h
    · split at h
      · cases h
      · rename_i stack hrun
        cases h
        refine IsPlain.ofSegments fun s hs => ?_
        rcases mem_of_foldlM_step hrun hs with hs | hs
        · cases hs
        · exact isPlain_of_mem_input (IsPlain.normalizeSlashes_text _) hstart hs

/-- A normal path that spells a text without backslashes is its own normal form. -/
theorem normalizePath_of_isNormal {c : Path} (hc : c.IsNormal) (hplain : IsPlain c.bytes)
    (base : Path) : normalizePath c base = .ok c := by
  obtain ⟨names, hnames, hbytes⟩ := hc
  obtain ⟨hshown, hslashes⟩ := hplain.ofText_display
  have htext : slashedText c = c.display := hslashes
  have hroot : OpensAtRoot c.display := by
    rw [← isAbsolute_ofText, hshown, Path.isAbsolute_iff, hbytes]
    rfl
  have hinput : input c.display base = names := by
    rw [input, if_pos hroot, ← segments_ofText, hshown]
    exact Path.loud_segments_of_names hnames hbytes
  have hrun : run names = some names := foldlM_step_of_names hnames []
  rw [normalizePath_eq, htext, if_neg (by simp [hbytes]), if_neg (by simp [hroot]), hinput,
    hrun]
  exact congrArg (fun bytes => Except.ok (Path.mk bytes)) hbytes.symm

theorem normalize_eq_ok_iff {raw : String} {base c : Path} :
    normalize raw base = .ok c
      ↔ normalizePath (Path.ofText (Text.trim raw)) base = .ok c := by
  rw [normalize]
  cases normalizePath (Path.ofText (Text.trim raw)) base with
  | error cause =>
    constructor
    · intro h
      cases h
    · intro h
      cases h
  | ok p =>
    constructor
    · intro h
      cases h
      rfl
    · intro h
      cases h
      rfl

/-! ## The second pass -/

theorem head?_display {c : Path} (hc : c.isAbsolute = true) :
    c.display.toList.head? = some '/' := by
  obtain ⟨rest, hbytes⟩ := Path.exists_bytes_of_isAbsolute hc
  rw [Path.display, hbytes, String.toList_ofList, Utf8.decodeLossy, Utf8.decodeFrom_cons]
  rfl

theorem slashedText_ofText (text : String) :
    slashedText (Path.ofText text) = normalizeSlashes text := by
  rw [slashedText, Path.display, Path.ofText, Utf8.decodeLossy_encode, String.ofList_toList]

theorem Path.IsNormal.isAbsolute {c : Path} (hc : c.IsNormal) : c.isAbsolute = true := by
  obtain ⟨names, -, hbytes⟩ := hc
  rw [Path.isAbsolute_iff, hbytes]
  rfl

/-- **Normalizing again.** Let an entry have a normal form whose text does not end in a
blank. Normalizing this text, against whatever base, gives the same path exactly when the
path spells a text without backslashes. It does unless the entry was resolved against a
base that does not. -/
theorem normalize_display_again {raw : String} {base c : Path}
    (h : normalize raw base = .ok c) (hend : Text.endsBlank c.display = false) :
    (∀ again : Path, normalize c.display again = .ok c ↔ IsPlain c.bytes)
      ∧ (OpensAtRoot (normalizeSlashes (Text.trim raw)) ∨ IsPlain base.bytes →
        IsPlain c.bytes) := by
  have hc := isNormal_of_normalize h
  have hhead := head?_display hc.isAbsolute
  have htrim : Text.trim c.display = c.display :=
    Text.trim_of_not_blank hhead (by decide) hend
  refine ⟨fun again => ?_, fun hstart => ?_⟩
  · rw [normalize_eq_ok_iff, htrim]
    constructor
    · intro hagain
      refine isPlain_of_normalizePath hagain (.inl ?_)
      rw [slashedText_ofText, OpensAtRoot, normalizeSlashes, String.toList_ofList,
        List.head?_map, hhead]
      rfl
    · intro hplain
      rw [hplain.ofText_display.1]
      exact normalizePath_of_isNormal hc hplain again
  · rw [← slashedText_ofText] at hstart
    exact isPlain_of_normalizePath (normalize_eq_ok_iff.mp h) hstart

/-- Blanks inside a path stay, and backslashes of the entry are gone after the first pass. -/
theorem normalize_display_again_blanks :
    let c := Path.ofText "/p q/x /y"
    normalize " z\\..\\x \\.\\y " (.ofText "/p q") = .ok c
      ∧ normalize c.display (.ofText "/elsewhere") = .ok c := by
  intro c
  have hc : normalize " z\\..\\x \\.\\y " (.ofText "/p q") = .ok c := rfl
  obtain ⟨hagain, hplain⟩ := normalize_display_again hc (by decide +kernel)
  exact ⟨hc, (hagain _).mpr (hplain (.inr ⟨"/p q".toList, by decide, rfl⟩))⟩

/-- Three paths whose texts name other places: a base with a backslash, a base that is not
UTF-8, and an entry that leaves a blank at the end. -/
theorem normalize_display_elsewhere :
    let differs := fun (raw : String) (base c d : Path) =>
      normalize raw base = .ok c
        ∧ normalize c.display (.ofText "/repo") = .ok d ∧ ¬ d.SameAs c
    differs "a" (.ofText "/re\\po") (.ofText "/re\\po/a") (.ofText "/re/po/a")
      ∧ differs "a" ⟨[0x2F, 0xFF]⟩ ⟨[0x2F, 0xFF, 0x2F, 0x61]⟩ (.ofText "/\uFFFD/a")
      ∧ differs "a /." (.ofText "/repo") (.ofText "/repo/a ") (.ofText "/repo/a") := by
  intro differs
  exact ⟨⟨rfl, rfl, by decide +kernel⟩, ⟨rfl, rfl, by decide +kernel⟩,
    ⟨rfl, rfl, by decide +kernel⟩⟩

end CoverageRegistry
