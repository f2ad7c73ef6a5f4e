import CoverageRegistry.Json.Value
import CoverageRegistry.TextMap

/-!
# Writing JSON

Values as texts: without any space, or on lines indented by two spaces. Of the characters of a
string only the quote, the backslash and the control characters below the space are escaped.
-/
namespace CoverageRegistry.Json

/-- A character as it stands in a string. -/
def escape (c : Char) : List Char :=
  match c with
  | '"' => ['\\', '"']
  | '\\' => ['\\', '\\']
  | '\x08' => ['\\', 'b']
  | '\x0c' => ['\\', 'f']
  | '\n' => ['\\', 'n']
  | '\r' => ['\\', 'r']
  | '\t' => ['\\', 't']
  | c =>
    if c.toNat < 0x20 then
      ['\\', 'u', '0', '0', Nat.digitChar (c.toNat / 16), Nat.digitChar (c.toNat % 16)]
    else [c]

/-- A text in quotes. -/
def quote (text : String) : String :=
  String.ofList ('"' :: text.toList.flatMap escape ++ ['"'])

/-- A whole number in decimal digits. -/
def renderInt (n : Int) : String :=
  let digits := String.ofList (Nat.toDigits 10 n.natAbs)
  if n < 0 then "-" ++ digits else digits

mutual

/-- A value without spaces. -/
def compact : Json → String
  | null => "null"
  | bool true => "true"
  | bool false => "false"
  | integer n => renderInt n
  | decimal digits exponent => renderInt digits ++ "e" ++ renderInt exponent
  | string text => quote text
  | array items => "[" ++ ",".intercalate (compactItems items) ++ "]"
  | object members => "\x7b" ++ ",".intercalate (compactMembers members) ++ "\x7d"
  | unusable => "null"

/-- The items of an array without spaces. -/
def compactItems : List Json → List String
  | [] => []
  | item :: rest => compact item :: compactItems rest

/-- The members of an object without spaces. -/
def compactMembers : List (String × Json) → List String
  | [] => []
  | (name, value) :: rest => (quote name ++ ":" ++ compact value) :: compactMembers rest

end

/-- A line break and the indentation of a depth. -/
def newline (depth : Nat) : String :=
  String.ofList ('\n' :: List.replicate (2 * depth) ' ')

/-- The parts of an array or an object, each on a line of its own. -/
def layout (depth : Nat) (opening closing : String) (parts : List String) : String :=
  if parts.isEmpty then opening ++ closing
  else
    opening ++ newline (depth + 1) ++ ("," ++ newline (depth + 1)).intercalate parts ++
      newline depth ++ closing

mutual

/-- A value on lines, at a depth. -/
def prettyAt : Nat → Json → String
  | depth, array items => layout depth "[" "]" (prettyItems depth items)
  | depth, object members => layout depth "\x7b" "\x7d" (prettyMembers depth members)
  | _, null => "null"
  | _, bool true => "true"
  | _, bool false => "false"
  | _, integer n => renderInt n
  | _, decimal digits exponent => renderInt digits ++ "e" ++ renderInt exponent
  | _, string text => quote text
  | _, unusable => "null"

/-- The items of an array at a depth. -/
def prettyItems : Nat → List Json → List String
  | _, [] => []
  | depth, item :: rest => prettyAt (depth + 1) item :: prettyItems depth rest

/-- The members of an object at a depth. -/
def prettyMembers : Nat → List (String × Json) → List String
  | _, [] => []
  | depth, (name, value) :: rest =>
    (quote name ++ ": " ++ prettyAt (depth + 1) value) :: prettyMembers depth rest

end

/-- A value on lines. -/
def pretty (value : Json) : String :=
  prettyAt 0 value

mutual

/-- The same value with the members of every object in the order of their names; of two members
with one name the later one counts. -/
def sortNames : Json → Json
  | array items => array (sortItems items)
  | object members => object (TextMap.ofList (sortMembers members)).entries
  | value => value

/-- The items of an array with sorted names. -/
def sortItems : List Json → List Json
  | [] => []
  | item :: rest => sortNames item :: sortItems rest

/-- The members of an object with sorted names below them. -/
def sortMembers : List (String × Json) → List (String × Json)
  | [] => []
  | (name, value) :: rest => (name, sortNames value) :: sortMembers rest

end

end CoverageRegistry.Json
