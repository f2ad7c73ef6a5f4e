import CoverageRegistry.Error
import CoverageRegistry.Toml.Value

/-!
# Assembling the tables of a TOML document

A document is a list of pairs followed by sections, each with a header. This module builds the
document's table from them and refuses what defines a key or a table twice. While it is built, a
table remembers its *origin*: a header or braces of its own, the header of a table below it, or a
dotted key.
-/
namespace CoverageRegistry.Toml

/-- How a table came to be. -/
inductive Origin where
  /-- By its own header, or by braces. -/
  | explicit
  /-- By the header of a table below it. -/
  | headerPath
  /-- By a dotted key. -/
  | dottedKey
  deriving DecidableEq, Repr

/-- A part of a document that is being assembled. -/
inductive Node where
  /-- A value, which is complete. -/
  | leaf (value : Value)
  | table (origin : Origin) (entries : List (String × Node))
  /-- The tables of headers with double brackets. -/
  | tables (items : List (List (String × Node)))
  deriving Inhabited

/-- The entries of a table that is being assembled. -/
abbrev Entries := List (String × Node)

/-- A key with its value; all but the last name of the key are tables. -/
structure Pair where
  path : List String
  name : String
  value : Value

/-- A header with the pairs below it. -/
structure Section where
  /-- Whether the header has double brackets. -/
  isItem : Bool
  path : List String
  name : String
  pairs : List Pair

namespace Entries

/-- The node of a key. -/
def find? (entries : Entries) (key : String) : Option Node :=
  (List.find? (fun entry => entry.1 == key) entries).map Prod.snd

/-- Gives a key a node, in place of the one it has. -/
def put (key : String) (node : Node) : Entries → Entries
  | [] => [(key, node)]
  | (k, n) :: rest => if k = key then (key, node) :: rest else (k, n) :: put key node rest

/-- Applies a change to the table that a path of a header leads to; tables on the way are made, and
of an array of tables the last one is meant. -/
def atHeader (change : Entries → Except TomlError Entries) :
    List String → Entries → Except TomlError Entries
  | [], entries => change entries
  | key :: path, entries =>
    match entries.find? key with
    | none => (atHeader change path []).map fun inner => entries.put key (.table .headerPath inner)
    | some (.leaf _) => .error .redefinition
    | some (.table origin inner) =>
      (atHeader change path inner).map fun inner => entries.put key (.table origin inner)
    | some (.tables items) =>
      match items.getLast? with
      | none => .error .redefinition
      | some last =>
        (atHeader change path last).map fun last =>
          entries.put key (.tables (items.dropLast ++ [last]))

/-- Adds a pair below a table. The dotted part of its key may make tables and pass through tables
that a dotted key or a header below them made, but the table that takes the value must be one that
a dotted key made, or the one the path starts from. -/
def addPair (name : String) (value : Value) :
    Bool → List String → Entries → Except TomlError Entries
  | mayTake, [], entries =>
    if mayTake && (entries.find? name).isNone then .ok (entries ++ [(name, .leaf value)])
    else .error .redefinition
  | _, key :: path, entries =>
    match entries.find? key with
    | none =>
      (addPair name value true path []).map fun inner => entries.put key (.table .dottedKey inner)
    | some (.leaf _) => .error .redefinition
    | some (.table origin inner) =>
      if origin = .explicit then .error .redefinition
      else
        (addPair name value (origin = .dottedKey) path inner).map fun inner =>
          entries.put key (.table origin inner)
    | some (.tables items) =>
      match items.getLast? with
      | none => .error .redefinition
      | some last =>
        (addPair name value false path last).map fun last =>
          entries.put key (.tables (items.dropLast ++ [last]))

/-- Adds pairs in order. -/
def addPairs (pairs : List Pair) (entries : Entries) : Except TomlError Entries :=
  pairs.foldlM (fun entries pair => addPair pair.name pair.value true pair.path entries) entries

/-- Adds a section below the table that its header's path leads to. A table that headers below it
made may still get its own header, once. -/
def addSection (entries : Entries) (part : Section) : Except TomlError Entries :=
  atHeader
    (fun entries =>
      if part.isItem then
        match entries.find? part.name with
        | none => do return entries.put part.name (.tables [← addPairs part.pairs []])
        | some (.tables items) => do
          return entries.put part.name (.tables (items ++ [← addPairs part.pairs []]))
        | some _ => .error .redefinition
      else
        match entries.find? part.name with
        | none => do return entries.put part.name (.table .explicit (← addPairs part.pairs []))
        | some (.table .headerPath inner) => do
          return entries.put part.name (.table .explicit (← addPairs part.pairs inner))
        | some _ => .error .redefinition)
    part.path entries

end Entries

mutual

/-- The value of a node. -/
def Node.toValue : Node → Value
  | .leaf value => value
  | .table _ entries => .table (Entries.toValues entries)
  | .tables items => .array (Entries.toTables items)

/-- The values of entries. -/
def Entries.toValues : List (String × Node) → List (String × Value)
  | [] => []
  | (key, node) :: rest => (key, node.toValue) :: Entries.toValues rest

/-- The tables of an array of tables. -/
def Entries.toTables : List (List (String × Node)) → List Value
  | [] => []
  | entries :: rest => .table (Entries.toValues entries) :: Entries.toTables rest

end

/-- The entries of a table written in braces. -/
def tableOfPairs (pairs : List Pair) : Except TomlError Value :=
  (Entries.addPairs pairs []).map fun entries => .table (Entries.toValues entries)

/-- The entries of a document. -/
def assemble (pairs : List Pair) (sections : List Section) :
    Except TomlError (List (String × Value)) := do
  let top ← Entries.addPairs pairs []
  return Entries.toValues (← sections.foldlM Entries.addSection top)

end CoverageRegistry.Toml
