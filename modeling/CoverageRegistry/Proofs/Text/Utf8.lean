import Mathlib.Logic.Function.Basic
import CoverageRegistry.Text.Utf8

/-!
# Reading back what was encoded

The decoder takes the octets of a character and gives the character, whatever follows
(`decodeFrom_encodeChar`). So it reads every encoded text back (`decodeLossy_encode`),
and no two texts have the same octets (`encode_injective`). Only the character with code
point zero has a zero among its octets (`zero_mem_encode`).
-/

namespace CoverageRegistry.Utf8

/-! ## The decoder, octet by octet -/

theorem decodeFrom_cons (p : Option Pending) (b : UInt8) (bs : List UInt8) :
    decodeFrom p (b :: bs) = (step p b.toNat).1 ++ decodeFrom (step p b.toNat).2 bs := by
  cases p <;> rfl

theorem step_none {b : Nat} (h : b < 0x80) : step none b = ([Char.ofNat b], none) := by
  simp [step, first, h]

theorem step_none_two {b : Nat} (hlow : 0xC2 ≤ b) (hhigh : b < 0xE0) :
    step none b = ([], some ⟨1, 0x80, 0xBF, b % 0x20⟩) := by
  rw [step, first, if_neg (by omega), if_neg (by omega), if_pos hhigh]

/-- Two lead octets narrow the range of the octet after them. -/
theorem step_none_three {b : Nat} (hlow : 0xE0 ≤ b) (hhigh : b < 0xF0) :
    step none b = ([], some ⟨2, if b = 0xE0 then 0xA0 else 0x80,
      if b = 0xED then 0x9F else 0xBF, b % 0x10⟩) := by
  by_cases hlongest : b = 0xE0
  · subst hlongest
    rfl
  by_cases hsurrogate : b = 0xED
  · subst hsurrogate
    rfl
  rw [step, first, if_neg (by omega), if_neg (by omega), if_neg (by omega), if_neg hlongest,
    if_neg hsurrogate, if_pos hhigh, if_neg hlongest, if_neg hsurrogate]

theorem step_none_four {b : Nat} (hlow : 0xF0 ≤ b) (hhigh : b ≤ 0xF4) :
    step none b = ([], some ⟨3, if b = 0xF0 then 0x90 else 0x80,
      if b = 0xF4 then 0x8F else 0xBF, b % 8⟩) := by
  by_cases hlongest : b = 0xF0
  · subst hlongest
    rfl
  by_cases hlast : b = 0xF4
  · subst hlast
    rfl
  rw [step, first, if_neg (by omega), if_neg (by omega), if_neg (by omega), if_neg (by omega),
    if_neg (by omega), if_neg (by omega), if_neg hlongest, if_pos (by omega),
    if_neg hlongest, if_neg hlast]

/-- The last octet of a character. -/
theorem step_last {low high bits b : Nat} (hlow : low ≤ b) (hhigh : b ≤ high) :
    step (some ⟨1, low, high, bits⟩) b = ([Char.ofNat (bits * 0x40 + b % 0x40)], none) := by
  simp [step, hlow, hhigh]

/-- An octet of a character that is neither the first nor the last one. -/
theorem step_more {owed low high bits b : Nat} (hlow : low ≤ b) (hhigh : b ≤ high) :
    step (some ⟨owed + 2, low, high, bits⟩) b
      = ([], some ⟨owed + 1, 0x80, 0xBF, bits * 0x40 + b % 0x40⟩) := by
  simp [step, hlow, hhigh]

/-! ## Whole characters -/

theorem decodeFrom_encodeChar (c : Char) (bs : List UInt8) :
    decodeFrom none (String.utf8EncodeChar c ++ bs) = c :: decodeFrom none bs := by
  have hread : ∀ n, n = c.val.toNat → Char.ofNat n = c := by
    rintro n rfl
    exact Char.ofNat_toNat c
  have hvalid : c.val.toNat < 0xD800 ∨ 0xDFFF < c.val.toNat ∧ c.val.toNat < 0x110000 := c.valid
  fun_cases String.utf8EncodeChar
  case case1 v h =>
    simp only [List.cons_append, List.nil_append, decodeFrom_cons, UInt8.toNat_ofNat']
    rw [step_none (by omega), hread _ (by omega)]
    rfl
  case case2 v h1 h2 =>
    simp only [List.cons_append, List.nil_append, decodeFrom_cons, UInt8.toNat_ofNat']
    rw [step_none_two (by omega) (by omega), step_last (by omega) (by omega),
      hread _ (by omega)]
    rfl
  case case3 v h1 h2 h3 =>
    simp only [List.cons_append, List.nil_append, decodeFrom_cons, UInt8.toNat_ofNat']
    rw [step_none_three (by omega) (by omega),
      step_more (by split <;> omega) (by split <;> omega), step_last (by omega) (by omega),
      hread _ (by omega)]
    rfl
  case case4 v h1 h2 h3 =>
    simp only [List.cons_append, List.nil_append, decodeFrom_cons, UInt8.toNat_ofNat']
    rw [step_none_four (by omega) (by omega),
      step_more (by split <;> omega) (by split <;> omega), step_more (by omega) (by omega),
      step_last (by omega) (by omega), hread _ (by omega)]
    rfl

/-- Every encoded text is read back. -/
@[simp] theorem decodeLossy_encode (cs : List Char) : decodeLossy (encode cs) = cs := by
  induction cs with
  | nil => rfl
  | cons c cs ih =>
    rw [encode_cons, decodeLossy, decodeFrom_encodeChar]
    exact congrArg (c :: ·) ih

theorem encode_injective : Function.Injective encode :=
  Function.LeftInverse.injective decodeLossy_encode

/-- The octets of the longer forms are `80` or above. -/
theorem zero_mem_encodeChar {c : Char} : 0 ∈ String.utf8EncodeChar c ↔ c = '\x00' := by
  constructor
  · intro h
    have hzero : c.val.toNat = 0 := by
      revert h
      fun_cases String.utf8EncodeChar
      all_goals
        simp only [List.mem_cons, List.not_mem_nil, or_false, ← UInt8.toNat_inj,
          UInt8.toNat_ofNat', UInt8.toNat_zero]
        omega
    exact Char.ext (UInt32.toNat.inj hzero)
  · rintro rfl
    decide

theorem zero_mem_encode {cs : List Char} : 0 ∈ encode cs ↔ '\x00' ∈ cs := by
  simp [encode, zero_mem_encodeChar]

end CoverageRegistry.Utf8
