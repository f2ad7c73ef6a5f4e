import CoverageRegistry.Command.Usage

/-!
# Reading a command line

A level of the line is read from left to right. A parameter whose value does not stand in the same
word waits for the next word, and it is settled late: when the next option is met, or at the end of
its level. So a word that has no place is reported before a fault of the parameter in front of it.
-/
namespace CoverageRegistry.Command

/-- A word of the line by its form. -/
inductive Word where
  /-- Two dashes: no option follows. -/
  | separator
  /-- An option by its name, perhaps with a value after an equals sign. -/
  | long (name : String) (value : Option String)
  /-- Options by their letters. -/
  | short (letters : List Char)
  /-- Anything else, a lone dash among it. -/
  | plain (text : String)
  deriving DecidableEq, Repr

/-- Splits at the first equals sign. -/
def splitValue (cs : List Char) : String × Option String :=
  match cs.dropWhile (· ≠ '=') with
  | [] => (String.ofList cs, none)
  | _ :: value => (String.ofList (cs.takeWhile (· ≠ '=')), some (String.ofList value))

/-- The form of a word. -/
def Word.ofText (text : String) : Word :=
  match text.toList with
  | ['-', '-'] => .separator
  | '-' :: '-' :: rest => .long (splitValue rest).1 (splitValue rest).2
  | '-' :: c :: rest => .short (c :: rest)
  | _ => .plain text

example : Word.ofText "--scope=it" = .long "scope" (some "it") := by decide +kernel
example : Word.ofText "-lcs" = .short ['l', 'c', 's'] := by decide +kernel
example : Word.ofText "-" = .plain "-" := by decide +kernel

/-- The options of a level that are settled. -/
structure Given where
  switches : List Switch
  languagesFile : Option Path
  language : Option String
  scope : Option TestScope
  settings : Option Path
  base : Option Path
  module : Option String
  deriving DecidableEq, Repr

/-- Why a line asks for nothing to be done. -/
inductive Stop where
  /-- It asks for help. -/
  | help
  /-- It asks for the version. -/
  | version
  | misused (error : UsageError)
  deriving DecidableEq, Repr

/-- A fault of the line. -/
def misuse {α : Type} (error : UsageError) : Except Stop α :=
  .error (.misused error)

namespace Given

/-- No options. -/
def nothing : Given := ⟨[], none, none, none, none, none, none⟩

/-- Whether a parameter has a value. -/
def has (given : Given) : Parameter → Bool
  | .languagesFile => given.languagesFile.isSome
  | .language => given.language.isSome
  | .scope => given.scope.isSome
  | .settings => given.settings.isSome
  | .base => given.base.isSome
  | .module => given.module.isSome

/-- The path that the value of a parameter names; it must not be empty. -/
def pathOf (parameter : Parameter) (value : String) : Except Stop Path :=
  if value.isEmpty then misuse (.missingValue parameter) else .ok (.ofText value)

/-- Gives a parameter its value, once. -/
def put (given : Given) (parameter : Parameter) (value : String) : Except Stop Given := do
  if given.has parameter then misuse (.repeated (.parameter parameter))
  match parameter with
  | .languagesFile => return { given with languagesFile := ← pathOf parameter value }
  | .settings => return { given with settings := ← pathOf parameter value }
  | .base => return { given with base := ← pathOf parameter value }
  | .language => return { given with language := value }
  | .module => return { given with module := value }
  | .scope =>
    match TestScope.parseConfig value with
    | .ok scope => return { given with scope := scope }
    | .error error => misuse (.invalidScope value error)

/-- Sets a switch, once. Help and version end the reading. -/
def turnOn (given : Given) (switch : Switch) : Except Stop Given :=
  match switch with
  | .help => .error .help
  | .version => .error .version
  | switch =>
    if given.switches.contains switch then misuse (.repeated (.switch switch))
    else .ok { given with switches := switch :: given.switches }

end Given

/-- A level while it is read: what is settled, and the parameter that is not yet, with its value
where there is one. -/
structure Reading where
  given : Given
  pending : Option (Parameter × Option String)
  deriving DecidableEq, Repr

namespace Reading

/-- The beginning of a level. -/
def start : Reading := ⟨.nothing, none⟩

/-- Whether the next word may be the value of a parameter. -/
def isWaiting (reading : Reading) : Bool :=
  match reading.pending with
  | some (_, none) => true
  | _ => false

/-- Settles the pending parameter. -/
def settle (reading : Reading) : Except Stop Given :=
  match reading.pending with
  | none => .ok reading.given
  | some (parameter, some value) => reading.given.put parameter value
  | some (parameter, none) => misuse (.missingValue parameter)

/-- Meets a switch. -/
def turnOn (reading : Reading) (switch : Switch) : Except Stop Reading := do
  return ⟨← (← reading.settle).turnOn switch, none⟩

/-- Meets a parameter, whose value stands in the same word or not. -/
def meet (reading : Reading) (parameter : Parameter) (value : Option String) :
    Except Stop Reading := do
  let given ← reading.settle
  match value with
  | some value => return ⟨← given.put parameter value, none⟩
  | none => return ⟨given, some (parameter, none)⟩

/-- The value in the rest of a word after a letter; an equals sign may stand before it. -/
def attached? : List Char → Option String
  | [] => none
  | '=' :: value => some (String.ofList value)
  | value => some (String.ofList value)

/-- Reads options by their letters. The rest of the word after a parameter is its value. -/
def readLetters (level : Option Subcommand) : List Char → Reading → Except Stop Reading
  | [], reading => .ok reading
  | letter :: rest, reading =>
    match lettered? level letter with
    | none => misuse (.unexpectedArgument (String.ofList ['-', letter]))
    | some (.switch switch) => do readLetters level rest (← reading.turnOn switch)
    | some (.parameter parameter) => reading.meet parameter (attached? rest)

/-- Reads an option by its name. -/
def readLong (level : Option Subcommand) (name : String) (value : Option String)
    (reading : Reading) : Except Stop Reading :=
  match named? level name, value with
  | none, _ => misuse (.unexpectedArgument ("--" ++ name))
  | some (.switch switch), some value => misuse (.unexpectedValue switch value)
  | some (.switch switch), none => reading.turnOn switch
  | some (.parameter parameter), value => reading.meet parameter value

/-- The fault of a word that has no place. Where a subcommand is expected it is taken for one,
unless it names one and only comes too late. -/
def stray (level : Option Subcommand) (text : String) : UsageError :=
  let isSubcommand := (Subcommand.ofName? text).isSome || text = helpWord
  if level.isNone && !isSubcommand then .unknownSubcommand text else .unexpectedArgument text

/-- Takes a word as the value that is waited for. -/
def takePlain (level : Option Subcommand) (text : String) (reading : Reading) :
    Except Stop Reading :=
  match reading.pending with
  | some (parameter, none) => .ok { reading with pending := some (parameter, some text) }
  | _ => misuse (stray level text)

/-- The end of a level: after two dashes no word has a place. -/
def readTrailing (level : Option Subcommand) (words : List String) (reading : Reading) :
    Except Stop Reading :=
  match words with
  | [] => .ok reading
  | text :: _ => misuse (stray level text)

/-- Reads one word; the separator is none of these. -/
def readWord (level : Option Subcommand) (text : String) (reading : Reading) :
    Except Stop Reading :=
  match Word.ofText text with
  | .separator => .ok reading
  | .long name value => reading.readLong level name value
  | .short letters => reading.readLetters level letters
  | .plain text => reading.takePlain level text

end Reading

/-- Reads the words of a subcommand. -/
def readSubcommand (subcommand : Subcommand) : List String → Reading → Except Stop Reading
  | [], reading => .ok reading
  | text :: rest, reading =>
    if Word.ofText text = .separator then reading.readTrailing subcommand rest
    else do readSubcommand subcommand rest (← reading.readWord subcommand text)

/-- What asking for help on a subcommand ends with. -/
def helpOn : List String → Stop
  | [] => .help
  | word :: rest =>
    if (Subcommand.ofName? word).isSome || word = helpWord then
      match rest with
      | [] => .help
      | next :: _ => .misused (.unknownSubcommand next)
    else .misused (.unknownSubcommand word)

/-- Reads the words of the program up to the subcommand; answers with the subcommand and the words
after it. -/
def readProgram :
    List String → Reading → Except Stop (Reading × Option (Subcommand × List String))
  | [], reading => .ok (reading, none)
  | text :: rest, reading =>
    if reading.isWaiting && Word.ofText text = .plain text then do
      readProgram rest (← reading.takePlain none text)
    else if text = helpWord then .error (helpOn rest)
    else
      match Subcommand.ofName? text with
      | some subcommand => .ok (reading, some (subcommand, rest))
      | none =>
        if Word.ofText text = .separator then do
          return (← reading.readTrailing none rest, none)
        else do readProgram rest (← reading.readWord none text)

end CoverageRegistry.Command
