import CoverageRegistry.Decimal

/-!
# Quoted texts and keys of TOML

Strings on one line and on several, with escapes or literal, and the keys of a document. Each reader
takes the characters after the opening and returns the text with what follows the closing.
-/
namespace CoverageRegistry.Toml

/-- Whether a character may stand in a comment: a tab, or no control character. -/
def isPlain (c : Char) : Bool :=
  c == '\t' || (0x20 ≤ c.toNat && c.toNat ≠ 0x7F)

/-- Whether a character separates on one line. -/
def isSpace (c : Char) : Bool :=
  c == ' ' || c == '\t'

/-- Drops the spaces at the front. -/
def skipSpaces (cs : List Char) : List Char :=
  cs.dropWhile isSpace

namespace Quoted

/-- Puts a character in front of a text that was read. -/
def prepend (c : Char) (read : List Char × List Char) : List Char × List Char :=
  (c :: read.1, read.2)

/-- The character that hexadecimal digits name. -/
def scalar? (digits : List Char) : Option Char := do
  let code ← Decimal.ofHex? digits
  if code.isValidChar then some (Char.ofNat code) else none

/-- The character that a letter after a backslash stands for. -/
def escaped? : Char → Option Char
  | 'b' => some '\x08'
  | 't' => some '\t'
  | 'n' => some '\n'
  | 'f' => some '\x0c'
  | 'r' => some '\r'
  | '"' => some '"'
  | '\\' => some '\\'
  | _ => none

/-- A string on one line, with escapes. -/
def basic? : List Char → Option (List Char × List Char)
  | [] => none
  | '"' :: rest => some ([], rest)
  | '\\' :: 'u' :: a :: b :: c :: d :: rest => do
    return prepend (← scalar? [a, b, c, d]) (← basic? rest)
  | '\\' :: 'U' :: a :: b :: c :: d :: e :: f :: g :: h :: rest => do
    return prepend (← scalar? [a, b, c, d, e, f, g, h]) (← basic? rest)
  | '\\' :: c :: rest => do return prepend (← escaped? c) (← basic? rest)
  | c :: rest => if isPlain c && c != '\\' then do return prepend c (← basic? rest) else none

/-- A string on one line, without escapes. -/
def literal? : List Char → Option (List Char × List Char)
  | [] => none
  | '\'' :: rest => some ([], rest)
  | c :: rest => if isPlain c then do return prepend c (← literal? rest) else none

/-- Drops a line break at the front. -/
def skipBreak : List Char → List Char
  | '\n' :: rest => rest
  | '\r' :: '\n' :: rest => rest
  | cs => cs

/-- Whether only spaces stand before the next line break. -/
def breaksAfterSpaces (cs : List Char) : Bool :=
  let rest := skipSpaces cs
  rest.head? == some '\n' || rest.take 2 == ['\r', '\n']

/-- A string on several lines, with escapes. The flag tells that a backslash at the end of a line
was read: the blanks and line breaks up to the next character do not belong to the text. -/
def multilineBasic? : Bool → List Char → Option (List Char × List Char)
  | _, [] => none
  | _, '"' :: '"' :: '"' :: '"' :: '"' :: rest => some (['"', '"'], rest)
  | _, '"' :: '"' :: '"' :: '"' :: rest => some (['"'], rest)
  | _, '"' :: '"' :: '"' :: rest => some ([], rest)
  | folding, '\r' :: '\n' :: rest =>
    if folding then multilineBasic? true rest
    else do return prepend '\n' (← multilineBasic? false rest)
  | folding, '\n' :: rest =>
    if folding then multilineBasic? true rest
    else do return prepend '\n' (← multilineBasic? false rest)
  | _, '\\' :: 'u' :: a :: b :: c :: d :: rest => do
    return prepend (← scalar? [a, b, c, d]) (← multilineBasic? false rest)
  | _, '\\' :: 'U' :: a :: b :: c :: d :: e :: f :: g :: h :: rest => do
    return prepend (← scalar? [a, b, c, d, e, f, g, h]) (← multilineBasic? false rest)
  | _, '\\' :: c :: rest =>
    if breaksAfterSpaces (c :: rest) then multilineBasic? true rest
    else do return prepend (← escaped? c) (← multilineBasic? false rest)
  | folding, c :: rest =>
    if folding && isSpace c then multilineBasic? true rest
    else if isPlain c && c != '\\' then do return prepend c (← multilineBasic? false rest)
    else none

/-- A string on several lines, without escapes. -/
def multilineLiteral? : List Char → Option (List Char × List Char)
  | [] => none
  | '\'' :: '\'' :: '\'' :: '\'' :: '\'' :: rest => some (['\'', '\''], rest)
  | '\'' :: '\'' :: '\'' :: '\'' :: rest => some (['\''], rest)
  | '\'' :: '\'' :: '\'' :: rest => some ([], rest)
  | '\r' :: '\n' :: rest => do return prepend '\n' (← multilineLiteral? rest)
  | '\n' :: rest => do return prepend '\n' (← multilineLiteral? rest)
  | c :: rest => if isPlain c then do return prepend c (← multilineLiteral? rest) else none

/-- A string of any form, from its opening quotes on. -/
def string? : List Char → Option (String × List Char)
  | '"' :: '"' :: '"' :: rest => asText (multilineBasic? false (skipBreak rest))
  | '"' :: rest => asText (basic? rest)
  | '\'' :: '\'' :: '\'' :: rest => asText (multilineLiteral? (skipBreak rest))
  | '\'' :: rest => asText (literal? rest)
  | _ => none
where
  /-- The text that was read, as a string. -/
  asText (read : Option (List Char × List Char)) : Option (String × List Char) :=
    read.map fun read => (String.ofList read.1, read.2)

end Quoted

/-- Whether a character may stand in a key without quotes. -/
def isBareKeyChar (c : Char) : Bool :=
  c.isAlphanum || c == '_' || c == '-'

/-- One name of a key, and what follows it. -/
def keyName? : List Char → Option (String × List Char)
  | '"' :: rest => (Quoted.basic? rest).map fun read => (String.ofList read.1, read.2)
  | '\'' :: rest => (Quoted.literal? rest).map fun read => (String.ofList read.1, read.2)
  | cs =>
    match cs.takeWhile isBareKeyChar with
    | [] => none
    | name => some (String.ofList name, cs.dropWhile isBareKeyChar)

/-- A key may have fewer names than this. -/
def keyLimit : Nat := 80

/-- The names of a key, with spaces around each; at most so many. -/
def keyNames? : Nat → List Char → Option (List String × List Char)
  | 0, _ => none
  | room + 1, cs => do
    let (name, rest) ← keyName? (skipSpaces cs)
    match skipSpaces rest with
    | '.' :: rest => do
      let (names, rest) ← keyNames? room rest
      return (name :: names, rest)
    | rest => return ([name], rest)

/-- A key as its last name and the names before it, and what follows it. -/
def key? (cs : List Char) : Option (List String × String × List Char) := do
  let (names, rest) ← keyNames? (keyLimit - 1) cs
  return (names.dropLast, ← names.getLast?, rest)

end CoverageRegistry.Toml
