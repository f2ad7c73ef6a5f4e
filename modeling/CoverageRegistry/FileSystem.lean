import CoverageRegistry.Error

/-!
# What the registry asks of a file system

Only two questions are asked: what a file holds, and whether a directory exists. A `FileSystem`
answers both; a `FileTree` is a file system that is given as a value.
-/
namespace CoverageRegistry

/-- The answers of a file system. -/
structure FileSystem where
  read : Path → Except FileError (List UInt8)
  isDirectory : Path → Bool

namespace FileSystem

/-- The text of a file. -/
def readText (files : FileSystem) (path : Path) : Except FileError String := do
  match Utf8.decode? (← files.read path) with
  | some cs => .ok (String.ofList cs)
  | none => .error .notUtf8

end FileSystem

/-- Directories and files, each by the names that lead to it from the root. -/
structure FileTree where
  directories : List (List Segment)
  files : List (List Segment × List UInt8)
  deriving Repr

namespace FileTree

/-- The tree that holds nothing but the root. -/
def empty : FileTree := ⟨[], []⟩

/-- What a path leads to. -/
inductive Place where
  | directory (names : List Segment)
  | file (content : List UInt8)
  deriving DecidableEq, Repr

/-- Whether a directory of the given names exists; the root always does. -/
def hasDirectory (tree : FileTree) (names : List Segment) : Bool :=
  names.isEmpty || tree.directories.contains names

/-- The names from the root to each directory on the way to a place, and to the place itself. -/
def ways (names : List Segment) : List (List Segment) :=
  (List.range (names.length + 1)).map names.take

/-- Makes a directory and the ones above it. -/
def addDirectory (tree : FileTree) (names : List Segment) : FileTree :=
  { tree with directories := tree.directories ++ ways names }

/-- Puts a file, and makes the directories above it. -/
def addFile (tree : FileTree) (names : List Segment) (content : List UInt8) : FileTree :=
  let made := tree.addDirectory names.dropLast
  { made with files := (names, content) :: made.files }

/-- The octets that a name may have. -/
def nameLimit : Nat := 255

/-- The octets that a path may have. -/
def pathLimit : Nat := 4095

/-- Follows segments from a directory. A file ends the way. -/
def follow (tree : FileTree) : List Segment → List Segment → Except FileError Place
  | names, [] => .ok (.directory names)
  | names, segment :: rest =>
    match Component.ofSegment? segment with
    | none => follow tree names rest
    | some (.name name) =>
      let below := names ++ [name]
      if nameLimit < name.length then .error .nameTooLong
      else if tree.hasDirectory below then follow tree below rest
      else
        match (tree.files.find? fun file => file.1 = below).map Prod.snd with
        | none => .error .notFound
        | some content => if rest.isEmpty then .ok (.file content) else .error .notDirectory
    | some _ => follow tree names.dropLast rest

/-- What a path leads to; a relative one is followed from the given directory. -/
def locate (tree : FileTree) (current : List Segment) (path : Path) : Except FileError Place :=
  if path.bytes.isEmpty then .error .notFound
  else if pathLimit < path.bytes.length then .error .nameTooLong
  else tree.follow (if path.isAbsolute then [] else current) (path.bytes.splitOn Path.separator)

/-- The file system of a tree, seen from one of its directories. -/
def fileSystem (tree : FileTree) (current : List Segment) : FileSystem where
  read path := do
    match ← tree.locate current path with
    | .directory _ => .error .isDirectory
    | .file content => .ok content
  isDirectory path :=
    match tree.locate current path with
    | .ok (.directory _) => true
    | _ => false

end FileTree

end CoverageRegistry
