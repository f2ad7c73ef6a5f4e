import CoverageRegistry.Toml.Quoted
import CoverageRegistry.Toml.Scalar
import CoverageRegistry.Toml.Table

/-!
# Reading TOML documents

The grammar of documents: values with their arrays and tables in braces, pairs, headers, comments
and line ends. Recursion is bounded by a number computed from the length of the text, which no
document exhausts, since every step takes a character.
-/
namespace CoverageRegistry.Toml

/-- Arrays and tables in braces nest less deep than this. -/
def nestingLimit : Nat := 80

/-- Drops spaces, line breaks and comments. The flag tells that a comment has begun. -/
def skipTrivia? : Bool → List Char → Option (List Char)
  | false, [] => some []
  | true, [] => none
  | _, '\n' :: rest => skipTrivia? false rest
  | _, '\r' :: '\n' :: rest => skipTrivia? false rest
  | true, c :: rest => if isPlain c then skipTrivia? true rest else none
  | false, '#' :: rest => skipTrivia? true rest
  | false, c :: rest =>
    if isSpace c then skipTrivia? false rest
    else if c = '\r' then none
    else some (c :: rest)

/-- What follows the line: spaces and a comment may stand before its end. -/
def lineEnd? (cs : List Char) : Option (List Char) :=
  let rest :=
    match skipSpaces cs with
    | '#' :: comment => comment.dropWhile isPlain
    | rest => rest
  match rest with
  | [] => some []
  | '\n' :: rest => some rest
  | '\r' :: '\n' :: rest => some rest
  | _ => none

/-- Turns a missing part into a fault of the grammar. -/
def orGrammar {α : Type} (read : Option α) : Except TomlError α :=
  match read with
  | some value => .ok value
  | none => .error .grammar

mutual

/-- A value, below so many arrays and tables in braces. -/
def readValue : Nat → Nat → List Char → Except TomlError (Value × List Char)
  | 0, _, _ => .error .grammar
  | fuel + 1, depth, cs =>
    match cs with
    | '[' :: rest =>
      if nestingLimit ≤ depth + 1 then .error .grammar
      else do
        match ← orGrammar (skipTrivia? false rest) with
        | ']' :: rest => return (.array [], rest)
        | rest =>
          let (items, rest) ← readItems fuel (depth + 1) rest
          return (.array items, rest)
    | '{' :: rest =>
      if nestingLimit ≤ depth + 1 then .error .grammar
      else do
        match skipSpaces rest with
        | '}' :: rest => return (.table [], rest)
        | rest =>
          let (pairs, rest) ← readInlinePairs fuel (depth + 1) rest
          return (← tableOfPairs pairs, rest)
    | '"' :: _ => (orGrammar (Quoted.string? cs)).map fun read => (.string read.1, read.2)
    | '\'' :: _ => (orGrammar (Quoted.string? cs)).map fun read => (.string read.1, read.2)
    | _ =>
      let (word, rest) := Scalar.lexeme cs
      (orGrammar (Scalar.ofLexeme? word)).map fun value => (value, rest)

/-- The items of an array up to its bracket, at least one. -/
def readItems : Nat → Nat → List Char → Except TomlError (List Value × List Char)
  | 0, _, _ => .error .grammar
  | fuel + 1, depth, cs => do
    let (item, rest) ← readValue fuel depth cs
    match ← orGrammar (skipTrivia? false rest) with
    | ']' :: rest => return ([item], rest)
    | ',' :: rest =>
      match ← orGrammar (skipTrivia? false rest) with
      | ']' :: rest => return ([item], rest)
      | rest =>
        let (others, rest) ← readItems fuel depth rest
        return (item :: others, rest)
    | _ => .error .grammar

/-- The pairs of a table in braces up to its brace, at least one. -/
def readInlinePairs : Nat → Nat → List Char → Except TomlError (List Pair × List Char)
  | 0, _, _ => .error .grammar
  | fuel + 1, depth, cs => do
    let (path, name, rest) ← orGrammar (key? cs)
    let rest ← orGrammar (Scalar.expect? '=' rest)
    let (item, rest) ← readValue fuel depth (skipSpaces rest)
    match skipSpaces rest with
    | '}' :: rest => return ([⟨path, name, item⟩], rest)
    | ',' :: rest =>
      let (others, rest) ← readInlinePairs fuel depth rest
      return (⟨path, name, item⟩ :: others, rest)
    | _ => .error .grammar

end

/-- A bound on the steps that reading a text takes. -/
def stepBound (cs : List Char) : Nat :=
  2 * cs.length + 2

/-- A line of a document that is not empty. -/
inductive Line where
  | pair (pair : Pair)
  | header (isItem : Bool) (path : List String) (name : String)

/-- A header from its first bracket on, up to the end of its line. -/
def header? : List Char → Option (Line × List Char)
  | '[' :: '[' :: rest => do
    let (path, name, rest) ← key? rest
    let rest ← Scalar.expect? ']' (← Scalar.expect? ']' rest)
    return (.header true path name, ← lineEnd? rest)
  | '[' :: rest => do
    let (path, name, rest) ← key? rest
    return (.header false path name, ← lineEnd? (← Scalar.expect? ']' rest))
  | _ => none

/-- A pair up to the end of its line. -/
def readPairLine (cs : List Char) : Except TomlError (Line × List Char) := do
  let (path, name, rest) ← orGrammar (key? cs)
  let rest ← orGrammar (Scalar.expect? '=' rest)
  let (value, rest) ← readValue (stepBound rest) 0 (skipSpaces rest)
  return (.pair ⟨path, name, value⟩, ← orGrammar (lineEnd? rest))

/-- The lines of a document that are not empty. -/
def readLines : Nat → List Char → Except TomlError (List Line)
  | 0, _ => .error .grammar
  | fuel + 1, cs =>
    match skipSpaces cs with
    | [] => .ok []
    | '[' :: rest => do
      let (line, rest) ← orGrammar (header? ('[' :: rest))
      return line :: (← readLines fuel rest)
    | c :: rest =>
      if c = '#' ∨ c = '\n' ∨ c = '\r' then do
        readLines fuel (← orGrammar (lineEnd? (c :: rest)))
      else do
        let (line, rest) ← readPairLine (c :: rest)
        return line :: (← readLines fuel rest)

/-- Splits lines into the pairs at the top and the sections. -/
def sectionsOf : List Line → List Pair × List Section
  | [] => ([], [])
  | .pair pair :: rest => (pair :: (sectionsOf rest).1, (sectionsOf rest).2)
  | .header isItem path name :: rest =>
    ([], ⟨isItem, path, name, (sectionsOf rest).1⟩ :: (sectionsOf rest).2)

/-- Drops a byte order mark at the front. -/
def skipMark : List Char → List Char
  | '\uFEFF' :: rest => rest
  | cs => cs

/-- The entries of the table that a text spells. -/
def parse (text : String) : Except TomlError (List (String × Value)) := do
  let cs := skipMark text.toList
  let (pairs, sections) := sectionsOf (← readLines (stepBound cs) cs)
  assemble pairs sections

end CoverageRegistry.Toml
