import CoverageRegistry.Error
import CoverageRegistry.Text.Plain

/-!
# What a command line may hold

The command line has two levels: the options of the program, and after the name of a subcommand the
options of that. A switch stands for itself; a parameter takes a value. Both are written with two
dashes before their name or, where they have one, with one dash before their letter. A line that
does not follow this is a usage error.
-/
namespace CoverageRegistry.Command

/-- What the program is asked to do. -/
inductive Subcommand where
  /-- Print the property keys of a language. -/
  | keys
  /-- Print the registered languages. -/
  | languages
  /-- Run the sensors of a language on one module and print the report sets. -/
  | collect
  deriving DecidableEq, Repr

namespace Subcommand

/-- All subcommands, in order. -/
def all : List Subcommand := [keys, languages, collect]

/-- The word for a subcommand. -/
def name : Subcommand → String
  | keys => "keys"
  | languages => "languages"
  | collect => "collect"

/-- The subcommand that a word names. -/
def ofName? (word : String) : Option Subcommand :=
  all.find? fun subcommand => subcommand.name = word

end Subcommand

/-- The word that asks for help on a subcommand. -/
def helpWord : String := "help"

/-- An option without a value. -/
inductive Switch where
  /-- Log more. -/
  | verbose
  /-- Log in JSON. -/
  | json
  /-- Ask for reports in every scope. -/
  | strict
  /-- Print help and stop. -/
  | help
  /-- Print the version and stop. -/
  | version
  deriving DecidableEq, Repr

/-- An option with a value. -/
inductive Parameter where
  /-- A languages file in place of the table that comes with the program. -/
  | languagesFile
  | language
  | scope
  | settings
  | base
  | module
  deriving DecidableEq, Repr

/-- An option. -/
inductive Opt where
  | switch (switch : Switch)
  | parameter (parameter : Parameter)
  deriving DecidableEq, Repr

/-- The long name of a switch. -/
def Switch.name : Switch → String
  | verbose => "verbose"
  | json => "json"
  | strict => "strict"
  | help => "help"
  | version => "version"

/-- The long name of a parameter. -/
def Parameter.name : Parameter → String
  | languagesFile => "languages-file"
  | language => "language"
  | scope => "scope"
  | settings => "settings"
  | base => "base"
  | module => "module"

/-- What stands for the value of a parameter in messages. -/
def Parameter.placeholder : Parameter → String
  | languagesFile => "LANGUAGES_FILE"
  | language => "LANGUAGE"
  | scope => "SCOPE"
  | settings => "SETTINGS"
  | base => "BASE"
  | module => "MODULE"

namespace Opt

/-- The long name of an option. -/
def name : Opt → String
  | switch s => s.name
  | parameter p => p.name

/-- The letter of an option. -/
def letter? : Opt → Option Char
  | switch .verbose => some 'v'
  | switch .help => some 'h'
  | switch .version => some 'V'
  | parameter .language => some 'l'
  | parameter .scope => some 's'
  | parameter .settings => some 's'
  | parameter .base => some 'b'
  | parameter .module => some 'm'
  | switch .json | switch .strict | parameter .languagesFile => none

/-- An option as messages write it. -/
def display : Opt → String
  | switch s => "--" ++ s.name
  | parameter p => "--" ++ p.name ++ " <" ++ p.placeholder ++ ">"

end Opt

/-- The options that both levels have. -/
def sharedOptions : List Opt :=
  [.switch .verbose, .switch .json, .parameter .languagesFile, .switch .help]

/-- The options of a level: that of the program, or that of a subcommand. -/
def optionsOf : Option Subcommand → List Opt
  | none => .switch .version :: sharedOptions
  | some .keys => [.parameter .language, .parameter .scope] ++ sharedOptions
  | some .languages => sharedOptions
  | some .collect =>
    [.parameter .settings, .parameter .base, .parameter .module, .parameter .language,
      .switch .strict] ++ sharedOptions

/-- The option that a long name means at a level. -/
def named? (level : Option Subcommand) (name : String) : Option Opt :=
  (optionsOf level).find? fun opt => opt.name = name

/-- The option that a letter means at a level. -/
def lettered? (level : Option Subcommand) (letter : Char) : Option Opt :=
  (optionsOf level).find? fun opt => opt.letter? = some letter

/-- What is wrong with a command line. -/
inductive UsageError where
  /-- Nothing was asked for. -/
  | nothingGiven
  /-- There are options but no subcommand. -/
  | noSubcommand
  /-- A word in the place of a subcommand. -/
  | unknownSubcommand (word : String)
  /-- A word or an option that has no place. -/
  | unexpectedArgument (text : String)
  /-- A value for an option that takes none. -/
  | unexpectedValue (switch : Switch) (value : String)
  /-- A parameter without a value. -/
  | missingValue (parameter : Parameter)
  /-- An option that was given before. -/
  | repeated (opt : Opt)
  /-- A scope that cannot be read. -/
  | invalidScope (value : String) (error : RegistryError)
  /-- A subcommand without the parameters that it needs. -/
  | missingParameters
  deriving DecidableEq, Repr

/-- The name of the program. -/
def programName : String := "covreg"

/-- What the program is, in one line. -/
def programAbout : String := "Multi-source coverage report registry"

/-- The version of the program. -/
def programVersion : String := "0.3.1"

namespace UsageError

/-- The last pieces of a message: the end of its sentence, and how to get help. -/
def ending (sentence : String) : List String :=
  [sentence ++ "\n\nFor more information, try '", (Opt.switch .help).display, "'.\n"]

/-- The text of a fault in pieces. What a line holds, and what it may hold, is set off from the text
around it, and is a piece of its own. -/
def pieces : UsageError → List String
  | nothingGiven => [programAbout ++ "\n"]
  | noSubcommand =>
    ["error: '", programName] ++ ending "' requires a subcommand but one was not provided"
  | unknownSubcommand word => ["error: unrecognized subcommand '", word] ++ ending "'"
  | unexpectedArgument text => ["error: unexpected argument '", text] ++ ending "' found"
  | unexpectedValue switch value =>
    ["error: unexpected value '", value, "' for '", (Opt.switch switch).display] ++
      ending "' found; no more were expected"
  | missingValue parameter =>
    ["error: a value is required for '", (Opt.parameter parameter).display] ++
      ending "' but none was supplied"
  | repeated opt =>
    ["error: the argument '", opt.display] ++ ending "' cannot be used multiple times"
  | invalidScope value error =>
    ["error: invalid value '", value, "' for '", (Opt.parameter .scope).display] ++
      ending ("': " ++ error.message)
  | missingParameters => ending "error: the following required arguments were not provided:"

/-- The text of a fault. A sequence of control characters that is not finished ends with its
piece. -/
def message (error : UsageError) : String :=
  String.join (error.pieces.map Text.plain)

example : (unexpectedArgument "--f\x1b[1o").message =
    "error: unexpected argument '--f' found\n\nFor more information, try '--help'.\n" := by
  decide +kernel

end UsageError

end CoverageRegistry.Command
