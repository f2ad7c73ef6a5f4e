/-!
# UTF-8

Encoding of characters as octets, and the decoding that never fails: every longest run of octets
that starts a character and cannot be completed is read as one replacement character. The decoder
is a machine that takes one octet at a time; `Pending` is a character whose first octets have been
read. A sequence is well formed when encoding what was decoded gives it back.
-/
namespace CoverageRegistry.Utf8

/-- The octets of a sequence of characters. -/
def encode (cs : List Char) : List UInt8 :=
  cs.flatMap String.utf8EncodeChar

/-- U+FFFD, which stands for octets that are no character. -/
def replacement : Char := '\uFFFD'

/-- A character whose first octets have been read. -/
structure Pending where
  /-- How many octets are still owed. -/
  owed : Nat
  /-- The least octet that may follow. -/
  low : Nat
  /-- The greatest octet that may follow. -/
  high : Nat
  /-- The bits read so far. -/
  bits : Nat
  deriving DecidableEq, Repr

/-- Reads an octet that stands at the start of a character. -/
def first (b : Nat) : List Char × Option Pending :=
  if b < 0x80 then ([Char.ofNat b], none)
  else if b < 0xC2 then ([replacement], none)
  else if b < 0xE0 then ([], some ⟨1, 0x80, 0xBF, b % 0x20⟩)
  else if b = 0xE0 then ([], some ⟨2, 0xA0, 0xBF, 0⟩)
  else if b = 0xED then ([], some ⟨2, 0x80, 0x9F, 0xD⟩)
  else if b < 0xF0 then ([], some ⟨2, 0x80, 0xBF, b % 0x10⟩)
  else if b = 0xF0 then ([], some ⟨3, 0x90, 0xBF, 0⟩)
  else if b < 0xF4 then ([], some ⟨3, 0x80, 0xBF, b % 8⟩)
  else if b = 0xF4 then ([], some ⟨3, 0x80, 0x8F, 4⟩)
  else ([replacement], none)

/-- One octet: the characters it ends, and what is pending after it. An octet that cannot continue
the pending character ends it as a replacement and is read again as a first octet. -/
def step : Option Pending → Nat → List Char × Option Pending
  | none, b => first b
  | some p, b =>
    if p.low ≤ b ∧ b ≤ p.high then
      let bits := p.bits * 0x40 + b % 0x40
      if p.owed ≤ 1 then ([Char.ofNat bits], none)
      else ([], some ⟨p.owed - 1, 0x80, 0xBF, bits⟩)
    else
      (replacement :: (first b).1, (first b).2)

/-- The characters of the octets that follow a pending character. -/
def decodeFrom : Option Pending → List UInt8 → List Char
  | none, [] => []
  | some _, [] => [replacement]
  | p, b :: bs => (step p b.toNat).1 ++ decodeFrom (step p b.toNat).2 bs

/-- The characters of a sequence of octets, with replacements for what is ill formed. -/
def decodeLossy (bs : List UInt8) : List Char :=
  decodeFrom none bs

/-- The characters of a well-formed sequence of octets. -/
def decode? (bs : List UInt8) : Option (List Char) :=
  if encode (decodeLossy bs) = bs then some (decodeLossy bs) else none

@[simp] theorem encode_nil : encode [] = [] := rfl

@[simp] theorem encode_cons (c : Char) (cs : List Char) :
    encode (c :: cs) = String.utf8EncodeChar c ++ encode cs := by
  simp [encode]

@[simp] theorem encode_append (cs ds : List Char) :
    encode (cs ++ ds) = encode cs ++ encode ds := by
  simp [encode]

@[simp] theorem decodeLossy_nil : decodeLossy [] = [] := rfl

theorem encode_of_decode? {bs : List UInt8} {cs : List Char} (h : decode? bs = some cs) :
    encode cs = bs := by
  unfold decode? at h
  split at h
  · rename_i hb
    exact (Option.some.inj h) ▸ hb
  · simp at h

end CoverageRegistry.Utf8
