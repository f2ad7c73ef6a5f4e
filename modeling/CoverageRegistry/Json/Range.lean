import CoverageRegistry.Decimal

/-!
# The range of JSON numbers

A number is read as a significand of 64 bits and a power of ten. Digits that the significand has no
room for only count as places. The value is the product of the two, each rounded to a double before
they are multiplied; it has to be below the bound of doubles. So close to the bound it is not the
number itself that decides, but what the two roundings make of it.
-/
namespace CoverageRegistry.Json

/-- A significand and a power of ten. -/
structure Scaled where
  significand : Nat
  exponent : Int
  deriving DecidableEq, Repr

/-- Appends digits to a significand until one finds no room; answers with the significand and the
number of digits that are left. -/
def appendDigits (significand : Nat) : List Char → Nat × Nat
  | [] => (significand, 0)
  | c :: rest =>
    let longer := Decimal.append significand c
    if longer < UInt64.size then appendDigits longer rest else (significand, rest.length + 1)

namespace Scaled

/-- The form of a number of whole digits, digits of the fraction and an exponent. Each whole digit
that is left raises the exponent, and each digit of the fraction that is not lowers it. -/
def ofParts (whole fraction : List Char) (exponent : Int) : Scaled :=
  let (start, wholeLeft) := appendDigits 0 whole
  let (significand, fractionLeft) := appendDigits start fraction
  ⟨significand, exponent + wholeLeft - (fraction.length - fractionLeft : Int)⟩

/-- Whether a number is beyond the range of doubles. -/
def isTooLarge (n : Scaled) : Bool :=
  if n.significand = 0 ∨ n.exponent < 0 then false
  else if 308 < n.exponent then true
  else
    Decimal.doubleBound ≤ Decimal.nearestDouble n.significand *
      Decimal.nearestDouble (Nat.pow 10 n.exponent.toNat)

example : ofParts "18446744073709551616".toList "5".toList 0 = ⟨18446744073709551615, 0⟩ := by
  decide +kernel

/-- Below the bound, but not after the roundings. -/
example : (ofParts "17976931348623158".toList [] 292).isTooLarge = true := by decide +kernel

/-- Beyond the bound, but not after the roundings. -/
example : (ofParts "179769313486231585".toList [] 291).isTooLarge = false := by decide +kernel

end Scaled

end CoverageRegistry.Json
