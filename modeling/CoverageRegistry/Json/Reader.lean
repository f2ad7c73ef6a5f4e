import CoverageRegistry.Json.Range
import CoverageRegistry.Json.Value

/-!
# Reading JSON

The grammar of JSON texts. A text may follow the grammar and still have parts without a value; they
are read as `Json.unusable`, so that a reader who passes over them is not stopped by them. Recursion
is bounded by a number computed from the length of the text, which no text exhausts.
-/
namespace CoverageRegistry.Json

/-- Whether a character may stand between the tokens. -/
def isSpace (c : Char) : Bool :=
  c == ' ' || c == '\n' || c == '\t' || c == '\r'

/-- Drops the spaces at the front. -/
def skipSpaces (cs : List Char) : List Char :=
  cs.dropWhile isSpace

/-- A piece of a string: a character, or a unit of UTF-16 that an escape names. -/
inductive Piece where
  | char (c : Char)
  | unit (code : Nat)

/-- The text of pieces: a high and a low surrogate unit make one character, and neither may stand
alone. -/
def textOf? : List Piece → Option (List Char)
  | [] => some []
  | .char c :: rest => (textOf? rest).map (c :: ·)
  | .unit high :: .unit low :: rest =>
    if 0xD800 ≤ high ∧ high < 0xDC00 then
      if 0xDC00 ≤ low ∧ low < 0xE000 then
        (textOf? rest).map
          (Char.ofNat (0x10000 + (high - 0xD800) * 0x400 + (low - 0xDC00)) :: ·)
      else none
    else if 0xDC00 ≤ high ∧ high < 0xE000 then none
    else (textOf? (.unit low :: rest)).map (Char.ofNat high :: ·)
  | .unit code :: rest =>
    if 0xD800 ≤ code ∧ code < 0xE000 then none
    else (textOf? rest).map (Char.ofNat code :: ·)

/-- The character that a letter after a backslash stands for. -/
def escaped? : Char → Option Char
  | '"' => some '"'
  | '\\' => some '\\'
  | '/' => some '/'
  | 'b' => some '\x08'
  | 'f' => some '\x0c'
  | 'n' => some '\n'
  | 'r' => some '\r'
  | 't' => some '\t'
  | _ => none

/-- The pieces of a string up to its closing quote, and what follows it. -/
def pieces? : List Char → Option (List Piece × List Char)
  | [] => none
  | '"' :: rest => some ([], rest)
  | '\\' :: 'u' :: a :: b :: c :: d :: rest => do
    let code ← Decimal.ofHex? [a, b, c, d]
    let (pieces, rest) ← pieces? rest
    return (.unit code :: pieces, rest)
  | '\\' :: c :: rest => do
    let c ← escaped? c
    let (pieces, rest) ← pieces? rest
    return (.char c :: pieces, rest)
  | c :: rest =>
    if c.toNat < 0x20 ∨ c = '\\' then none
    else do
      let (pieces, rest) ← pieces? rest
      return (.char c :: pieces, rest)

/-- The digits at the front, at least one, and what follows them. -/
def digits? (cs : List Char) : Option (List Char × List Char) :=
  match cs.takeWhile Char.isDigit with
  | [] => none
  | digits => some (digits, cs.dropWhile Char.isDigit)

/-- The digits of a whole number, which has no zero in front. -/
def whole? (cs : List Char) : Option (List Char × List Char) :=
  match digits? cs with
  | some ('0' :: _ :: _, _) => none
  | read? => read?

/-- The fraction of a number; nothing where it has none. -/
def fraction? (cs : List Char) : Option (List Char × List Char) :=
  match cs with
  | '.' :: rest => digits? rest
  | _ => some ([], cs)

/-- The exponent of a number; nothing where it has none. -/
def exponent? (cs : List Char) : Option (Option Int × List Char) :=
  match cs with
  | c :: rest =>
    if c = 'e' ∨ c = 'E' then
      match rest with
      | '-' :: rest =>
        (digits? rest).map fun read => (some (-(Decimal.ofDigits read.1 : Int)), read.2)
      | '+' :: rest => (digits? rest).map fun read => (some (Decimal.ofDigits read.1 : Int), read.2)
      | rest => (digits? rest).map fun read => (some (Decimal.ofDigits read.1 : Int), read.2)
    else some (none, cs)
  | [] => some (none, [])

/-- The number of a sign and parts. The negative zero is no integer. -/
def numberOf (negative : Bool) (whole fraction : List Char) (exponent : Option Int) : Json :=
  let digits := Decimal.ofDigits (whole ++ fraction)
  let scale := exponent.getD 0 - fraction.length
  let signed : Int := if negative then -digits else digits
  if (Scaled.ofParts whole fraction (exponent.getD 0)).isTooLarge then unusable
  else if fraction.isEmpty && exponent.isNone && !(negative && digits == 0) then integer signed
  else decimal signed scale

/-- A number, and what follows it. -/
def number? (cs : List Char) : Option (Json × List Char) := do
  let negative := cs.head? == some '-'
  let (whole, rest) ← whole? (if negative then cs.tail else cs)
  let (fraction, rest) ← fraction? rest
  let (exponent, rest) ← exponent? rest
  return (numberOf negative whole fraction exponent, rest)

/-- What follows a word that must come next. -/
def word (expected : List Char) (value : Json) (cs : List Char) : Option (Json × List Char) :=
  if expected.isPrefixOf cs then some (value, cs.drop expected.length) else none

/-- The object of members whose names may be no text. -/
def objectOf (members : List (Option String × Json)) : Json :=
  match members.mapM fun member => member.1.map fun name => (name, member.2) with
  | some members => object members
  | none => unusable

/-- A string as a text, where it is one, and what follows it. -/
def string? (cs : List Char) : Option (Option String × List Char) :=
  (pieces? cs).map fun read => ((textOf? read.1).map String.ofList, read.2)

mutual

/-- A value, and what follows it. -/
def readValue : Nat → List Char → Option (Json × List Char)
  | 0, _ => none
  | fuel + 1, cs =>
    match skipSpaces cs with
    | '[' :: rest =>
      match skipSpaces rest with
      | ']' :: rest => some (array [], rest)
      | rest => (readItems fuel rest).map fun read => (array read.1, read.2)
    | '{' :: rest =>
      match skipSpaces rest with
      | '}' :: rest => some (object [], rest)
      | rest => (readMembers fuel rest).map fun read => (objectOf read.1, read.2)
    | '"' :: rest =>
      (string? rest).map fun read => ((read.1.map string).getD unusable, read.2)
    | 'n' :: rest => word ['u', 'l', 'l'] null rest
    | 't' :: rest => word ['r', 'u', 'e'] (bool true) rest
    | 'f' :: rest => word ['a', 'l', 's', 'e'] (bool false) rest
    | rest => number? rest

/-- The items of an array up to its bracket, at least one. -/
def readItems : Nat → List Char → Option (List Json × List Char)
  | 0, _ => none
  | fuel + 1, cs => do
    let (item, rest) ← readValue fuel cs
    match skipSpaces rest with
    | ']' :: rest => return ([item], rest)
    | ',' :: rest =>
      let (others, rest) ← readItems fuel rest
      return (item :: others, rest)
    | _ => none

/-- The members of an object up to its brace, at least one. -/
def readMembers : Nat → List Char → Option (List (Option String × Json) × List Char)
  | 0, _ => none
  | fuel + 1, cs => do
    match skipSpaces cs with
    | '"' :: rest =>
      let (name, rest) ← string? rest
      match skipSpaces rest with
      | ':' :: rest =>
        let (value, rest) ← readValue fuel rest
        match skipSpaces rest with
        | '}' :: rest => return ([(name, value)], rest)
        | ',' :: rest =>
          let (others, rest) ← readMembers fuel rest
          return ((name, value) :: others, rest)
        | _ => none
      | _ => none
    | _ => none

end

/-- The value of a text. -/
def parse? (text : String) : Option Json := do
  let cs := text.toList
  let (value, rest) ← readValue (2 * cs.length + 2) cs
  if (skipSpaces rest).isEmpty then some value else none

end CoverageRegistry.Json
