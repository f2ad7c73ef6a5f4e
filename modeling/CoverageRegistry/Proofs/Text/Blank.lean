import CoverageRegistry.Text.Blank
import Mathlib.Data.List.DropRight

/-!
# Trimming

A character that is not blank separates what trimming does at the front from what it does
at the end (`trimList_append_cons`). So what is left has no blank at either end
(`trimList_trimList`), and a text without blanks at its ends, and no other, is left as it
is (`trimList_eq_self_iff`).
-/

namespace CoverageRegistry.Text

/-- Trimming takes no character that stands beside the blanks. -/
theorem trimStart_append_cons {c : Char} (hc : isBlank c = false) (before after : List Char) :
    trimStart (before ++ c :: after) = trimStart before ++ c :: after := by
  rw [trimStart, List.dropWhile_append, List.dropWhile_cons_of_neg (by simp [hc]), trimStart]
  split
  · rename_i hempty
    rw [List.isEmpty_iff.mp hempty, List.nil_append]
  · rfl

theorem trimEnd_append_cons {c : Char} (hc : isBlank c = false) (before after : List Char) :
    trimEnd (before ++ c :: after) = before ++ c :: trimEnd after := by
  have hreversed := trimStart_append_cons hc after.reverse before.reverse
  rw [trimStart, trimStart] at hreversed
  rw [trimEnd, trimEnd, List.reverse_append, List.reverse_cons, List.append_assoc,
    List.singleton_append, hreversed]
  simp

/-- Only what stands before and after a character that is not blank is trimmed. -/
theorem trimList_append_cons {c : Char} (hc : isBlank c = false)
    (before after : List Char) :
    trimList (before ++ c :: after) = trimStart before ++ c :: trimEnd after := by
  rw [trimList, trimStart_append_cons hc, trimEnd_append_cons hc]

theorem trimList_eq_nil_iff {cs : List Char} :
    trimList cs = [] ↔ ∀ c ∈ cs, isBlank c = true := by
  constructor
  · intro h c hc
    by_contra hblank
    obtain ⟨before, after, rfl⟩ := List.append_of_mem hc
    rw [trimList_append_cons (by simpa using hblank)] at h
    simp at h
  · intro h
    rw [trimList, trimStart, List.dropWhile_eq_nil_iff.mpr h]
    rfl

theorem trim_eq_empty_iff {text : String} : trim text = "" ↔ allBlank text = true := by
  rw [← String.toList_inj, toList_trim, allBlank, List.all_eq_true]
  exact trimList_eq_nil_iff

/-! ## What is left -/

theorem trimList_sublist (cs : List Char) : (trimList cs).Sublist cs := by
  have hend : (trimEnd (trimStart cs)).reverse.Sublist (trimStart cs).reverse := by
    rw [trimEnd, List.reverse_reverse]
    exact List.dropWhile_sublist _
  exact (List.reverse_sublist.mp hend).trans (List.dropWhile_sublist _)

/-- What is left of a trimmed text starts with a character that is not blank. -/
theorem trimStart_trimList (cs : List Char) : trimStart (trimList cs) = trimList cs := by
  rw [trimList]
  cases hstart : trimStart cs with
  | nil => rfl
  | cons c rest =>
    have hc : isBlank c = false := by
      have hhead := List.head?_dropWhile_not isBlank cs
      rw [trimStart] at hstart
      rw [hstart] at hhead
      simpa using hhead
    have hend := trimEnd_append_cons hc [] rest
    rw [List.nil_append] at hend
    rw [hend]
    exact trimStart_append_cons hc [] (trimEnd rest)

theorem trimList_trimList (cs : List Char) : trimList (trimList cs) = trimList cs := by
  have hend : trimEnd (trimList cs) = trimList cs := by
    rw [trimList, trimEnd, trimEnd, List.reverse_reverse, List.dropWhile_idempotent]
  rw [trimList, trimStart_trimList, hend]

theorem trimStart_eq_self_iff {cs : List Char} :
    trimStart cs = cs ↔ ∀ c ∈ cs.head?, isBlank c = false := by
  cases cs with
  | nil => simp [trimStart]
  | cons c rest => simp [trimStart, List.dropWhile_eq_self_iff]

theorem trimEnd_eq_self_iff {cs : List Char} :
    trimEnd cs = cs ↔ ∀ c ∈ cs.getLast?, isBlank c = false := by
  rw [trimEnd, List.reverse_eq_iff, ← List.head?_reverse]
  exact trimStart_eq_self_iff

theorem trimEnd_of_not_blank {cs : List Char} (h : ∀ c ∈ cs, isBlank c = false) :
    trimEnd cs = cs :=
  trimEnd_eq_self_iff.mpr fun c hc => h c (List.mem_of_getLast? hc)

/-- A text is left as it is when it neither starts nor ends with a blank. -/
theorem trimList_eq_self_iff {cs : List Char} :
    trimList cs = cs ↔
      (∀ c ∈ cs.head?, isBlank c = false) ∧ ∀ c ∈ cs.getLast?, isBlank c = false := by
  constructor
  · intro h
    have hstart : trimStart cs = cs := h ▸ trimStart_trimList cs
    have hend : trimEnd cs = cs := by
      rwa [trimList, hstart] at h
    exact ⟨trimStart_eq_self_iff.mp hstart, trimEnd_eq_self_iff.mp hend⟩
  · rintro ⟨hstart, hend⟩
    rw [trimList, trimStart_eq_self_iff.mpr hstart, trimEnd_eq_self_iff.mpr hend]

end CoverageRegistry.Text
