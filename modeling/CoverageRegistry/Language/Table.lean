import CoverageRegistry.Error
import CoverageRegistry.Language.Basic
import CoverageRegistry.TextMap

/-!
# The table of languages

Which languages are registered. A language is registered under its key, once; its key is made of
lower-case ASCII letters and digits, and its name is not blank.
-/
namespace CoverageRegistry

/-- Whether a text is made of lower-case ASCII letters and digits, and not empty. -/
def isLanguageKey (key : String) : Bool :=
  !key.toList.isEmpty && key.toList.all fun c => c.isLower || c.isDigit

/-- The registered languages: the name of each, by key. -/
structure LanguageTable where
  names : TextMap String
  deriving DecidableEq, Repr

namespace LanguageTable

/-- The table without languages. -/
def empty : LanguageTable := ⟨.empty⟩

/-- Adds a language without looking at it. -/
def insert (table : LanguageTable) (info : LanguageInfo) : LanguageTable :=
  ⟨table.names.insert info.key info.name⟩

/-- The table of the languages that come with the program. -/
def builtin : LanguageTable :=
  (empty.insert ⟨"vbnet", "VB.NET"⟩).insert ⟨"cs", "C#"⟩

/-- Whether a language is registered. -/
def contains (table : LanguageTable) (key : String) : Bool :=
  table.names.contains key

/-- Registers a language. The key is checked first, then the name, then whether the key is free. -/
def register (table : LanguageTable) (info : LanguageInfo) :
    Except RegistryError LanguageTable :=
  if !isLanguageKey info.key then .error (.config (.invalidLanguageKey info.key))
  else if Text.allBlank info.name then .error (.config (.blankLanguageName info.key))
  else if table.contains info.key then .error (.config (.duplicateLanguage info.key))
  else .ok (table.insert info)

/-- The table of a list of languages, registered in order. -/
def ofList (infos : List LanguageInfo) : Except RegistryError LanguageTable :=
  if infos.isEmpty then .error (.config .noLanguages)
  else infos.foldlM register empty

/-- The languages, in the order of their keys. -/
def infos (table : LanguageTable) : List LanguageInfo :=
  table.names.entries.map fun entry => ⟨entry.1, entry.2⟩

/-- The language registered under a key. -/
def language (table : LanguageTable) (key : String) : Except RegistryError LanguageInfo :=
  match table.names.get? key with
  | some name => .ok ⟨key, name⟩
  | none => .error (.unknownLanguage key)

/-- The configuration of a registered language in a scope. -/
def configuration (table : LanguageTable) (key : String) (scope : TestScope) :
    Except RegistryError CoverageConfiguration :=
  (table.language key).map fun info => ⟨info.key, scope⟩

/-- The property keys of a registered language in a scope. -/
def resolveKeys (table : LanguageTable) (key : String) (scope : TestScope) :
    Except RegistryError CoverageKeys :=
  (table.configuration key scope).map CoverageConfiguration.keys

end LanguageTable

end CoverageRegistry
