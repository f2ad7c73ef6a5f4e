import CoverageRegistry.Event
import CoverageRegistry.FileSystem
import CoverageRegistry.Path.List
import CoverageRegistry.TextMap
import CoverageRegistry.Toml.Document

/-!
# Settings of a module

The properties of a module: every property has one text, and a property with several values lists
them in it, separated by commas. A settings file is a TOML document with a single table
`properties` of texts and arrays of texts; an array stands for its items joined by commas.
-/
namespace CoverageRegistry

/-- The properties of a module. -/
structure Settings where
  properties : TextMap String
  deriving DecidableEq, Repr

namespace Settings

/-- No properties. -/
def empty : Settings := ⟨.empty⟩

/-- The settings with the given pairs; of two pairs with one key the later one counts. -/
def ofPairs (pairs : List (String × String)) : Settings :=
  ⟨.ofList pairs⟩

/-- Gives a property a text. -/
def set (settings : Settings) (key value : String) : Settings :=
  ⟨settings.properties.insert key value⟩

/-- The text of a property. -/
def get? (settings : Settings) (key : String) : Option String :=
  settings.properties.get? key

/-- Whether a property has a text. -/
def hasKey (settings : Settings) (key : String) : Bool :=
  settings.properties.contains key

/-- The number of properties. -/
def size (settings : Settings) : Nat :=
  settings.properties.size

/-- The entries that a property lists; none where it is not set. -/
def list (settings : Settings) (key : String) : List String :=
  ((settings.get? key).map PathList.entries).getD []

/-- A property as a file writes it. -/
inductive Value where
  | one (text : String)
  | many (texts : List String)
  deriving DecidableEq, Repr

/-- The text of a property that a file writes. -/
def Value.raw : Value → String
  | one text => text
  | many texts => PathList.join texts

/-- A property of a document. -/
def Value.ofToml? (value : Toml.Value) : Option Value :=
  match value.text? with
  | some text => some (one text)
  | none => value.texts?.map many

/-- The settings that a file describes; every property has a key that is not blank. -/
def ofFile (properties : List (String × Value)) : Except RegistryError Settings :=
  if properties.any fun property => Text.allBlank property.1 then
    .error (.config .blankPropertyKey)
  else .ok (ofPairs (properties.map fun property => (property.1, property.2.raw)))

/-- The properties of a document, which has no other key at its top than their table's. -/
def listed? (document : List (String × Toml.Value)) : Option (List (String × Value)) :=
  if document.any fun entry => entry.1 ≠ "properties" then none
  else
    match Toml.Value.field? "properties" document with
    | none => some []
    | some value => do
      (← value.entries?).mapM fun entry => return (entry.1, ← Value.ofToml? entry.2)

/-- The settings that a text describes. -/
def ofToml (text : String) : Except RegistryError Settings := do
  let document ← (Toml.parse text).mapError .toml
  match listed? document with
  | some properties => ofFile properties
  | none => .error (.toml .shape)

/-- Loads a settings file. Only a file with settings is reported. -/
def load (files : FileSystem) (path : Path) : Except RegistryError Settings × List Event :=
  match files.readText path with
  | .error error => (.error (.io error), [])
  | .ok text =>
    match ofToml text with
    | .error error => (.error error, [])
    | .ok settings => (.ok settings, [.settingsLoaded path.display settings.size])

end Settings

end CoverageRegistry
