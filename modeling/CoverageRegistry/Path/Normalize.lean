import CoverageRegistry.Path.Basic
import CoverageRegistry.Text.Blank

/-!
# Normalization of paths

A configured entry is resolved against the base directory of its module by its text alone: the
backslash separates like the slash, a relative entry continues the base, `.` is dropped and `..`
takes back the segment before it. A `..` with nothing to take back leaves the file system's root,
and the entry is refused.
-/
namespace CoverageRegistry

/-- Why a path has no normal form. -/
inductive PathError where
  /-- There is no path. -/
  | empty
  /-- A relative path needs an absolute base. -/
  | relativeBase (base : String)
  /-- A `..` goes above the root. -/
  | escapesRoot (raw : String)
  deriving DecidableEq, Repr

namespace PathError

/-- The text of the error. -/
def message : PathError → String
  | empty => "path is empty"
  | relativeBase base => "base directory must be absolute: " ++ base
  | escapesRoot raw => "path escapes the filesystem root: " ++ raw

end PathError

/-- A configured entry that has no normal form, as it was written. -/
structure InvalidPath where
  raw : String
  cause : PathError
  deriving DecidableEq, Repr

namespace InvalidPath

/-- The text of the error. -/
def message (e : InvalidPath) : String :=
  "invalid report path '" ++ e.raw ++ "': " ++ e.cause.message

end InvalidPath

/-- Replaces every backslash by a slash. -/
def normalizeSlashes (text : String) : String :=
  String.ofList (text.toList.map fun c => if c = '\\' then '/' else c)

namespace Path

/-- Applies one component to the path built so far. -/
def follow? (built : Path) : Component → Option Path
  | .root => some (built.join ⟨[separator]⟩)
  | .here => some built
  | .parent => built.parent?
  | .name segment => some (built.join ⟨segment⟩)

/-- The path that the components build, one after the other; nothing when a `..` has nothing to
take back. -/
def collapse? (components : List Component) : Option Path :=
  components.foldlM follow? ⟨[]⟩

end Path

/-- The normal form of a path, resolved against a base directory. -/
def normalizePath (path base : Path) : Except PathError Path :=
  if path.bytes = [] then .error .empty
  else
    let text := normalizeSlashes path.display
    let slashed := Path.ofText text
    if !slashed.isAbsolute && !base.isAbsolute then .error (.relativeBase base.display)
    else
      match Path.collapse? (base.join slashed).components with
      | some path => .ok path
      | none => .error (.escapesRoot text)

/-- The normal form of a configured entry; blanks at its ends do not belong to it. -/
def normalize (raw : String) (base : Path) : Except InvalidPath Path :=
  (normalizePath (Path.ofText (Text.trim raw)) base).mapError fun cause => ⟨raw, cause⟩

/-- The entries that can be normalized, and the errors of the others, each in order. -/
def normalizeAll (raws : List String) (base : Path) : List Path × List InvalidPath :=
  (raws.filterMap fun raw => (normalize raw base).toOption,
   raws.filterMap fun raw =>
    match normalize raw base with
    | .ok _ => none
    | .error e => some e)

end CoverageRegistry
