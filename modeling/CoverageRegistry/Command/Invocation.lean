import CoverageRegistry.Command.Line

/-!
# What a command line asks for

The options of both levels together say what is to be done, with which table of languages, and how
to log. A subcommand is read to its end, with everything that can be wrong with it, before the end
of the program's own options. An environment variable names the languages file where the line does
not.
-/
namespace CoverageRegistry.Command

/-- What is asked of a collection. -/
structure Collection where
  /-- The settings file. -/
  settings : Path
  /-- The base directory; where it is missing, the current directory. -/
  base : Option Path
  /-- The key of the module. -/
  module : String
  language : String
  /-- Whether each scope needs a report. -/
  strict : Bool
  deriving DecidableEq, Repr

/-- What is to be done. -/
inductive Action where
  /-- Print the property keys of a language, in one scope or in both. -/
  | keys (language : String) (scope : Option TestScope)
  | languages
  | collect (collection : Collection)
  deriving DecidableEq, Repr

/-- The key of a module that is not named. -/
def defaultModule : String := "root"

/-- The action of a subcommand, where its options have what it needs. -/
def Subcommand.action? (subcommand : Subcommand) (given : Given) : Option Action :=
  match subcommand with
  | .keys => given.language.map fun language => .keys language given.scope
  | .languages => some .languages
  | .collect =>
    match given.settings, given.language with
    | some settings, some language =>
      some (.collect {
        settings := settings
        base := given.base
        module := given.module.getD defaultModule
        language := language
        strict := given.switches.contains .strict })
    | _, _ => none

/-- What a command line asks for. -/
structure Invocation where
  verbose : Bool
  /-- Whether the log is written in JSON. -/
  jsonLog : Bool
  languagesFile : Option Path
  action : Action
  deriving DecidableEq, Repr

namespace Invocation

/-- The end of a level: its last parameter is settled, and the variable must name a file where the
level does not. -/
def close (reading : Reading) (fallback : Option String) : Except Stop Given := do
  let given ← reading.settle
  if given.languagesFile.isNone && fallback = some "" then misuse (.missingValue .languagesFile)
  return given

/-- The fault of a line without a subcommand. -/
def withoutSubcommand (given : Given) (fallback : Option String) : UsageError :=
  if given.switches.isEmpty && given.languagesFile.isNone && fallback.isNone then .nothingGiven
  else .noSubcommand

/-- The invocation of both levels: a switch may stand at either, and the inner languages file
counts. -/
def ofLevels (outer inner : Given) (fallback : Option String) (action : Action) : Invocation where
  verbose := outer.switches.contains .verbose || inner.switches.contains .verbose
  jsonLog := outer.switches.contains .json || inner.switches.contains .json
  languagesFile := inner.languagesFile <|> outer.languagesFile <|> fallback.map Path.ofText
  action := action

/-- Reads a command line; `fallback` is the languages file that the environment names. -/
def parse (words : List String) (fallback : Option String) : Except Stop Invocation := do
  let (reading, subcommand) ← readProgram words .start
  match subcommand with
  | none => misuse (withoutSubcommand (← close reading fallback) fallback)
  | some (subcommand, rest) =>
    let inner ← close (← readSubcommand subcommand rest .start) fallback
    match subcommand.action? inner with
    | none => misuse .missingParameters
    | some action =>
      let outer ← close reading fallback
      return ofLevels outer inner fallback action

end Invocation

end CoverageRegistry.Command
