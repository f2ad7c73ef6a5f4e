/-!
# Decimal literals and the range of doubles

A number that a format lets one write but that is too large to be a double is refused by readers.
The test is exact: a decimal rounds to infinity from the middle between the greatest double and the
next power of two on. A reader that works with rounded parts of a number rounds them by
`nearestDouble`.
-/
namespace CoverageRegistry.Decimal

/-- The least number that rounds to infinity as a double. -/
def doubleBound : Nat := ((1 <<< 54) - 1) <<< 970

/-- The number of digits of a number. -/
def digitCount (n : Nat) : Nat :=
  (Nat.toDigits 10 n).length

/-- Whether `digits * 10 ^ exponent` is beyond the range of a double. The middle case alone needs
the exact comparison. -/
def exceedsDouble (digits : Nat) (exponent : Int) : Bool :=
  let magnitude := exponent + digitCount digits
  if digits = 0 ∨ magnitude < 300 then false
  else if 400 < magnitude then true
  else if 0 ≤ exponent then doubleBound ≤ digits * Nat.pow 10 exponent.toNat
  else doubleBound * Nat.pow 10 (-exponent).toNat ≤ digits

/-- The nearest number with at most 53 significant bits; of two that are as near, the one that is
even in them. -/
def nearestDouble (n : Nat) : Nat :=
  let excess := n.log2 - 52
  let kept := n >>> excess
  let cut := n - (kept <<< excess)
  let unit := 1 <<< excess
  (if unit < 2 * cut ∨ unit = 2 * cut ∧ kept % 2 = 1 then kept + 1 else kept) <<< excess

example :
    [9007199254740992, 9007199254740993, 9007199254740995].map nearestDouble =
      [9007199254740992, 9007199254740992, 9007199254740996] := by
  decide +kernel

example : nearestDouble 100000000000000000000000 = 99999999999999991611392 := by decide +kernel

/-- A number with a decimal digit after it. -/
def append (n : Nat) (digit : Char) : Nat :=
  10 * n + (digit.toNat - '0'.toNat)

/-- The number that decimal digits spell. -/
def ofDigits (digits : List Char) : Nat :=
  digits.foldl append 0

/-- The value of a hexadecimal digit. -/
def hexValue? (c : Char) : Option Nat :=
  if c.isDigit then some (c.toNat - '0'.toNat)
  else if 'a' ≤ c ∧ c ≤ 'f' then some (c.toNat - 'a'.toNat + 10)
  else if 'A' ≤ c ∧ c ≤ 'F' then some (c.toNat - 'A'.toNat + 10)
  else none

/-- The number that hexadecimal digits spell. -/
def ofHex? (digits : List Char) : Option Nat :=
  digits.foldlM (fun n c => (hexValue? c).map (16 * n + ·)) 0

end CoverageRegistry.Decimal
