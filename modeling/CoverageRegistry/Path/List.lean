import CoverageRegistry.Text.Blank

/-!
# Lists of paths written in one text

A property with several values is one text whose entries are separated by commas. Blanks around an
entry do not belong to it, and an entry of blanks is no entry.
-/
namespace CoverageRegistry.PathList

/-- The entries of a list of characters, as lists of characters. -/
def entriesOf (cs : List Char) : List (List Char) :=
  ((cs.splitOn ',').map Text.trimList).filter fun entry => !entry.isEmpty

/-- The entries of a comma separated text, in order. -/
def entries (value : String) : List String :=
  (entriesOf value.toList).map String.ofList

/-- Writes entries as one text. -/
def join (values : List String) : String :=
  ",".intercalate values

end CoverageRegistry.PathList
