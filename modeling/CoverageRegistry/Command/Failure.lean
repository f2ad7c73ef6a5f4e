import CoverageRegistry.Error

/-!
# Failures of the program

A well-formed command line may still ask for something that fails. A failure says what was being
done, and why it failed where an error of the registry is behind it. Its report gives one line to
the former and a list of causes to the latter, each cause under the one that it explains.
-/
namespace CoverageRegistry

/-- The texts of an error and of what is behind it. -/
def RegistryError.causes (error : RegistryError) : List String :=
  error.message ::
    match error with
    | invalidPath invalid => [invalid.cause.message]
    | toml fault => [fault.message]
    | io fault => [fault.message]
    | _ => []

namespace Command

/-- What failed. -/
inductive Failure where
  | languagesFile (path : Path) (error : RegistryError)
  | settingsFile (path : Path) (error : RegistryError)
  | unknownLanguage (language : String) (error : RegistryError)
  | reportSets (error : RegistryError)
  /-- Sensors failed, each on a module. -/
  | sensors (failed : List (String × String))
  /-- The report holds a path that is no text. -/
  | unwritable
  deriving DecidableEq, Repr

namespace Failure

/-- What was being done. -/
def summary : Failure → String
  | languagesFile path _ => "Failed to load languages from " ++ path.display
  | settingsFile path _ => "Failed to load settings from " ++ path.display
  | unknownLanguage language _ => "Unknown language '" ++ language ++ "'"
  | reportSets _ => "Failed to build report sets"
  | sensors failed =>
    "sensors failed: " ++ ", ".intercalate (failed.map fun pair => pair.1 ++ " on " ++ pair.2)
  | unwritable => "Failed to serialize run report"

/-- Why it failed, the outermost cause first. -/
def causes : Failure → List String
  | languagesFile _ error | settingsFile _ error | unknownLanguage _ error | reportSets error =>
    error.causes
  | sensors _ => []
  | unwritable => ["path contains invalid UTF-8 characters"]

/-- A text with something before its first line and the same amount of blanks before the others. -/
def hang (lead : String) (text : String) : String :=
  let lines := (text.toList.splitOn '\n').map String.ofList
  lead ++ ("\n" ++ String.ofList (List.replicate lead.length ' ')).intercalate lines

/-- The lead of a cause with a number. -/
def numbered (n : Nat) : String :=
  let digits := Nat.toDigits 10 n
  String.ofList (List.replicate (5 - digits.length) ' ' ++ digits ++ [':', ' '])

/-- The lines of the causes; only several causes are numbered. -/
def causeLines : List String → List String
  | [cause] => [hang "    " cause]
  | causes => causes.mapIdx fun n cause => hang (numbered n) cause

/-- The report of a failure. -/
def report (failure : Failure) : String :=
  let lines := causeLines failure.causes
  "Error: " ++ failure.summary ++
    (if lines.isEmpty then "" else "\n\nCaused by:\n" ++ "\n".intercalate lines) ++ "\n"

example :
    (unknownLanguage "x" (.unknownLanguage "x")).report =
      "Error: Unknown language 'x'\n\nCaused by:\n    unknown language: x\n" := by
  decide +kernel

example :
    causeLines ["io error: a", "a"] = ["    0: io error: a", "    1: a"] := by
  decide +kernel

end Failure

end Command

end CoverageRegistry
