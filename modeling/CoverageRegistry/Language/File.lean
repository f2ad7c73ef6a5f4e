import CoverageRegistry.Event
import CoverageRegistry.FileSystem
import CoverageRegistry.Language.Table
import CoverageRegistry.Toml.Document

/-!
# Languages files

A languages file is a TOML document with one `[[language]]` table per language. Other keys are
ignored. A language may also be written as an array whose first two items are its key and its name.
-/
namespace CoverageRegistry

/-- The language that a value of a document describes. -/
def LanguageInfo.ofToml? (value : Toml.Value) : Option LanguageInfo :=
  match value with
  | .array (key :: name :: _) => do return ⟨← key.text?, ← name.text?⟩
  | _ => do
    let entries ← value.entries?
    let key ← (Toml.Value.field? "key" entries).bind Toml.Value.text?
    let name ← (Toml.Value.field? "name" entries).bind Toml.Value.text?
    return ⟨key, name⟩

namespace LanguageTable

/-- The languages that a document lists, in its order. -/
def listed? (document : List (String × Toml.Value)) : Option (List LanguageInfo) :=
  match Toml.Value.field? "language" document with
  | none => some []
  | some (.array items) => items.mapM LanguageInfo.ofToml?
  | some _ => none

/-- The table that a text describes. -/
def ofToml (text : String) : Except RegistryError LanguageTable := do
  let document ← (Toml.parse text).mapError .toml
  match listed? document with
  | some infos => ofList infos
  | none => .error (.toml .shape)

/-- Loads a languages file. A file that can be read is reported, whatever it holds. -/
def load (files : FileSystem) (path : Path) : Except RegistryError LanguageTable × List Event :=
  match files.readText path with
  | .error error => (.error (.io error), [])
  | .ok text => (ofToml text, [.loadingLanguages path.display])

end LanguageTable

end CoverageRegistry
