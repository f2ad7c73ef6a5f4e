import CoverageRegistry.Kind
import CoverageRegistry.Path.Normalize

/-!
# Errors

Why an operation of the registry fails. Each error is a cause; its text is made in one place,
`RegistryError.message`.
-/
namespace CoverageRegistry

/-- What is wrong with a configuration. -/
inductive ConfigError where
  /-- A word that names no test scope. -/
  | unknownScope (word : String)
  /-- A language key that is not made of lower-case ASCII letters and digits. -/
  | invalidLanguageKey (key : String)
  /-- A language whose name is blank. -/
  | blankLanguageName (key : String)
  /-- A language that is already registered. -/
  | duplicateLanguage (key : String)
  /-- A languages file that names no language. -/
  | noLanguages
  /-- A property whose key is blank. -/
  | blankPropertyKey
  /-- Any other fault, in the words of whoever found it. -/
  | other (text : String)
  deriving DecidableEq, Repr

/-- The text of a fault of a configuration. -/
def ConfigError.message : ConfigError → String
  | unknownScope word => "unknown test scope: " ++ word
  | invalidLanguageKey key =>
    "invalid language key '" ++ key ++ "': expected lowercase ascii letters or digits"
  | blankLanguageName key => "language '" ++ key ++ "' has an empty display name"
  | duplicateLanguage key => "language '" ++ key ++ "' registered twice"
  | noLanguages => "languages table declares no [[language]] entries"
  | blankPropertyKey => "property key must not be empty"
  | other text => text

/-- What is wrong with a TOML document. -/
inductive TomlError where
  /-- It does not follow the grammar. -/
  | grammar
  /-- It defines a key or a table twice. -/
  | redefinition
  /-- It is a document of another shape than the one asked for. -/
  | shape
  deriving DecidableEq, Repr

/-- The text of a fault of a document. -/
def TomlError.message : TomlError → String
  | grammar => "invalid syntax"
  | redefinition => "duplicate key"
  | shape => "unexpected shape"

/-- Why a file could not be read. -/
inductive FileError where
  | notFound
  | notDirectory
  | isDirectory
  /-- A path, or a name in it, is longer than the system allows. -/
  | nameTooLong
  | notUtf8
  /-- Any other failure, in the words of the system. -/
  | other (text : String)
  deriving DecidableEq, Repr

/-- The text of a failure to read a file. -/
def FileError.message : FileError → String
  | notFound => "No such file or directory (os error 2)"
  | notDirectory => "Not a directory (os error 20)"
  | isDirectory => "Is a directory (os error 21)"
  | nameTooLong => "File name too long (os error 36)"
  | notUtf8 => "stream did not contain valid UTF-8"
  | other text => text

/-- Why an operation of the registry fails. -/
inductive RegistryError where
  /-- A configured entry has no normal form. -/
  | invalidPath (error : InvalidPath)
  /-- The language is not registered. -/
  | unknownLanguage (language : String)
  /-- The collector no longer accepts contributions. -/
  | registrySealed (kind : ReportKind) (scope : Option TestScope)
  /-- No tool has a report, and the policy asks for one. -/
  | emptyReportSet (language : String) (scope : TestScope)
  /-- The kind and the scope make no bucket. -/
  | scopeMismatch (kind : ReportKind) (scope : Option TestScope)
  /-- The collector is bound to another language. -/
  | languageMismatch (bound requested : String)
  /-- A configuration is at fault. -/
  | config (error : ConfigError)
  /-- A TOML document is at fault. -/
  | toml (error : TomlError)
  /-- A file could not be read. -/
  | io (error : FileError)
  deriving DecidableEq, Repr

namespace RegistryError

/-- The text of an error. -/
def message : RegistryError → String
  | invalidPath error => error.message
  | unknownLanguage language => "unknown language: " ++ language
  | registrySealed kind scope =>
    "registry is sealed; rejected contribution for " ++ kind.label ++ " (" ++ scopeLabel scope ++
      ")"
  | emptyReportSet language scope =>
    "no coverage reports found for language '" ++ language ++ "' (" ++ scope.name ++ ")"
  | scopeMismatch kind scope =>
    "report kind " ++ kind.label ++ " does not accept scope '" ++ scopeLabel scope ++ "'"
  | languageMismatch bound requested =>
    "collector holds '" ++ bound ++ "' reports; cannot build a report set for '" ++ requested ++ "'"
  | config error => "configuration error: " ++ error.message
  | toml error => "toml parse error: " ++ error.message
  | io error => "io error: " ++ error.message

/-- Whether a run can go on after the error. -/
def isRecoverable : RegistryError → Bool
  | invalidPath _ => true
  | emptyReportSet _ _ => true
  | _ => false

end RegistryError

/-- Reads a test scope. -/
def TestScope.parseConfig (text : String) : Except RegistryError TestScope :=
  (TestScope.parse text).mapError fun word => .config (.unknownScope word)

/-- The bucket of a kind and a scope, where the scope rule holds. -/
def BucketKey.make (kind : ReportKind) (scope : Option TestScope) :
    Except RegistryError BucketKey :=
  if (BucketKey.mk kind scope).Admissible then .ok ⟨kind, scope⟩
  else .error (.scopeMismatch kind scope)

end CoverageRegistry
