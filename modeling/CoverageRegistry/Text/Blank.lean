/-!
# Blank characters

The characters with the Unicode property `White_Space`, and trimming by them. Trimming is defined
on lists of characters, where its laws are short, and lifted to strings.
-/
namespace CoverageRegistry.Text

/-- The inclusive ranges of code points that have the property `White_Space`. -/
def blankRanges : List (Nat × Nat) :=
  [(0x0009, 0x000D), (0x0020, 0x0020), (0x0085, 0x0085), (0x00A0, 0x00A0), (0x1680, 0x1680),
   (0x2000, 0x200A), (0x2028, 0x2029), (0x202F, 0x202F), (0x205F, 0x205F), (0x3000, 0x3000)]

/-- Whether a character is blank. -/
def isBlank (c : Char) : Bool :=
  blankRanges.any fun range => range.1 ≤ c.toNat && c.toNat ≤ range.2

/-- The property has twenty-five code points. -/
example : (blankRanges.map fun range => range.2 - range.1 + 1).sum = 25 := by decide

/-- Drops the blanks at the front. -/
def trimStart (cs : List Char) : List Char :=
  cs.dropWhile isBlank

/-- Drops the blanks at the end. -/
def trimEnd (cs : List Char) : List Char :=
  (cs.reverse.dropWhile isBlank).reverse

/-- Drops the blanks at both ends. -/
def trimList (cs : List Char) : List Char :=
  trimEnd (trimStart cs)

/-- A string without the blanks at its ends. -/
def trim (s : String) : String :=
  String.ofList (trimList s.toList)

/-- Whether a string holds nothing but blanks. -/
def allBlank (s : String) : Bool :=
  s.toList.all isBlank

@[simp] theorem toList_trim (s : String) : (trim s).toList = trimList s.toList := by
  simp [trim]

@[simp] theorem trimList_nil : trimList [] = [] := rfl

end CoverageRegistry.Text
