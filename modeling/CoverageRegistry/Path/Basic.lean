import CoverageRegistry.Text.Utf8

/-!
# Paths

A path is a sequence of octets. Three views of it are used:

- its *text*, the octets read as UTF-8 with replacements for what is ill formed;
- its *segments*, what stands between the separators;
- its *components*: the root, a leading `.`, each `..` and each name. Empty segments and any other
  `.` are noise and have no component.

Two paths with the same octets are equal (`=`); two paths with the same components name the same
place (`Path.SameAs`), and paths are ordered by their components. The two relations differ on paths
such as `/a//b` and `/a/b`.
-/
namespace CoverageRegistry

/-- A path of a file system, as octets. -/
structure Path where
  bytes : List UInt8
  deriving DecidableEq, Repr, Inhabited

/-- What stands between two separators of a path. -/
abbrev Segment := List UInt8

/-- A step of a path. -/
inductive Component where
  /-- The separator that an absolute path starts with. -/
  | root
  /-- A leading `.`. -/
  | here
  /-- A `..`. -/
  | parent
  /-- Any other segment. -/
  | name (segment : Segment)
  deriving DecidableEq, Repr

namespace Component

/-- The root comes before `.`, which comes before `..`, which comes before every name. -/
def rank : Component → Nat
  | root => 0
  | here => 1
  | parent => 2
  | name _ => 3

/-- The octets of a name; nothing for the other components. -/
def nameBytes : Component → Segment
  | name segment => segment
  | _ => []

/-- Components are ordered by rank, and names among each other by their octets. -/
instance : Ord Component where
  compare := compareLex (compareOn rank) (compareOn nameBytes)

/-- The component of a segment that does not open the path. -/
def ofSegment? (segment : Segment) : Option Component :=
  if segment = [] ∨ segment = [0x2E] then none
  else if segment = [0x2E, 0x2E] then some parent
  else some (name segment)

end Component

namespace Path

/-- The octet `/`, which separates segments. -/
def separator : UInt8 := 0x2F

/-- The path that a text spells. -/
def ofText (text : String) : Path :=
  ⟨Utf8.encode text.toList⟩

/-- The text of a path, with replacements for octets that are not UTF-8. -/
def display (p : Path) : String :=
  String.ofList (Utf8.decodeLossy p.bytes)

/-- The text of a path that is well-formed UTF-8. -/
def text? (p : Path) : Option String :=
  (Utf8.decode? p.bytes).map String.ofList

/-- Whether a path starts at the root. -/
def isAbsolute (p : Path) : Bool :=
  p.bytes.head? == some separator

/-- The octets spelled by segments. -/
def joinSegments (segments : List Segment) : List UInt8 :=
  [separator].intercalate segments

/-- The absolute path with the given segments. -/
def ofSegments (segments : List Segment) : Path :=
  ⟨separator :: joinSegments segments⟩

/-- Continues a path by another one: an absolute one replaces it, any other follows it after one
separator. -/
def join (base rest : Path) : Path :=
  if rest.isAbsolute then rest
  else if base.bytes = [] ∨ base.bytes.getLast? = some separator then ⟨base.bytes ++ rest.bytes⟩
  else ⟨base.bytes ++ separator :: rest.bytes⟩

/-- What a path opens with: the root, a `.` of its own, or neither. -/
def anchor? (p : Path) : Option Component :=
  match p.bytes with
  | [] => none
  | b :: rest =>
    if b = separator then some .root
    else if b = 0x2E ∧ (rest = [] ∨ rest.head? = some separator) then some .here
    else none

/-- The octets that an opening takes; the root and `.` both take one. -/
def anchorBytes (p : Path) : List UInt8 :=
  p.bytes.take p.anchor?.toList.length

/-- The segments after the opening. -/
def body (p : Path) : List Segment :=
  (p.bytes.drop p.anchor?.toList.length).splitOn separator

/-- The components of a path. -/
def components (p : Path) : List Component :=
  p.anchor?.toList ++ p.body.filterMap Component.ofSegment?

/-- Two paths are the same place when they have the same components. -/
def SameAs (p q : Path) : Prop :=
  p.components = q.components

instance (p q : Path) : Decidable (p.SameAs q) :=
  inferInstanceAs (Decidable (p.components = q.components))

/-- Paths are ordered by their components; a path comes before its continuations. -/
instance : Ord Path where
  compare := compareOn components

/-- Whether a segment is noise: empty, or a `.` that does not open the path. -/
def isNoise (segment : Segment) : Bool :=
  (Component.ofSegment? segment).isNone

/-- Drops the noise at the end. -/
def dropNoiseEnd (segments : List Segment) : List Segment :=
  (segments.reverse.dropWhile isNoise).reverse

/-- The path without its last component; nothing where there is none or it is the root. -/
def parent? (p : Path) : Option Path :=
  match dropNoiseEnd p.body with
  | [] => if p.anchor? = some .here then some ⟨[]⟩ else none
  | segment :: segments =>
    some ⟨p.anchorBytes ++ joinSegments (dropNoiseEnd (segment :: segments).dropLast)⟩

/-- What is left of the segments after components that they must start with. -/
def stripComponents : List Component → List Segment → Option (List Segment)
  | [], segments => some segments
  | _ :: _, [] => none
  | c :: cs, segment :: segments =>
    match Component.ofSegment? segment with
    | none => stripComponents (c :: cs) segments
    | some d => if c = d then stripComponents cs segments else none

/-- A path relative to a base whose components it starts with: the text that follows them, without
noise at its ends. A base without components leaves the path as it is, up to noise at its end. -/
def relativeTo (p base : Path) : Option Path :=
  if base.components = [] then
    some ⟨p.anchorBytes ++ joinSegments (dropNoiseEnd p.body)⟩
  else if base.anchor? ≠ p.anchor? then none
  else
    (stripComponents (base.body.filterMap Component.ofSegment?) p.body).map fun rest =>
      ⟨joinSegments (dropNoiseEnd (rest.dropWhile isNoise))⟩

@[simp] theorem sameAs_refl (p : Path) : p.SameAs p := rfl

theorem SameAs.symm {p q : Path} (h : p.SameAs q) : q.SameAs p := Eq.symm h

theorem SameAs.trans {p q r : Path} (h : p.SameAs q) (g : q.SameAs r) : p.SameAs r := Eq.trans h g

theorem isAbsolute_ofSegments (segments : List Segment) :
    (ofSegments segments).isAbsolute = true := rfl

end Path

end CoverageRegistry
