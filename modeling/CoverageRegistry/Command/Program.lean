import CoverageRegistry.Command.Collect
import CoverageRegistry.Json.Printer
import CoverageRegistry.Language.File
import CoverageRegistry.LogFilter

/-!
# The program

What an invocation answers with, given what the program finds around it. The answer is a JSON value
or a failure; with it come the events of everything that was done, of which the log shows those that
its filter lets through.
-/
namespace CoverageRegistry.Command

/-- Loads the table of languages from a file; without a file it is the table that comes with the
program. -/
def loadTable (files : FileSystem) :
    Option Path → Except Failure LanguageTable × List Event
  | none => (.ok .builtin, [])
  | some path =>
    let loaded := LanguageTable.load files path
    (loaded.1.mapError (.languagesFile path), loaded.2)

/-- A language of the table. -/
def findLanguage (table : LanguageTable) (language : String) : Except Failure LanguageInfo :=
  (table.language language).mapError (.unknownLanguage language)

/-- The property keys of a language in some scopes. -/
def keysJson (info : LanguageInfo) (scopes : List TestScope) : Json :=
  .object [
    ("language", .string info.key),
    ("name", .string info.name),
    ("coverage", .object (scopes.map fun scope =>
      (scope.name, (CoverageKeys.derive info.key scope).toJson))),
    ("analyzer", .object [
      ("project_out_paths", .string info.projectOutPathsKey),
      ("roslyn_report_paths", .string info.roslynReportPathsKey)])]

/-- The languages of a table. -/
def languagesJson (table : LanguageTable) : Json :=
  .array (table.infos.map LanguageInfo.toJson)

/-- Does what is asked for with a table. -/
def Action.perform (action : Action) (host : Host) (table : LanguageTable) :
    Except Failure Json × List Event :=
  match action with
  | .keys language scope =>
    ((findLanguage table language).map fun info =>
      keysJson info ((scope.map fun scope => [scope]).getD TestScope.all), [])
  | .languages => (.ok (languagesJson table), [])
  | .collect collection =>
    let done := collection.report host table
    (done.1 >>= Collection.answer, done.2)

/-- Does what an invocation asks for. -/
def Invocation.perform (invocation : Invocation) (host : Host) :
    Except Failure Json × List Event :=
  let loaded := loadTable host.files invocation.languagesFile
  match loaded.1 with
  | .error failure => (.error failure, loaded.2)
  | .ok table =>
    let done := invocation.action.perform host table
    (done.1, loaded.2 ++ done.2)

/-- The filter of an invocation's log: the one that the environment asks for, where it can be
read. -/
def Invocation.logFilter (invocation : Invocation) (rules : Option String) : LogFilter :=
  (rules.bind LogFilter.parse?).getD (.upTo (if invocation.verbose then .debug else .info))

/-- What the program answers with. -/
inductive Reply where
  | help
  | version
  | misused (error : UsageError)
  | failed (failure : Failure)
  | done (value : Json)

namespace Reply

/-- The reply to a line that asks for nothing to be done. -/
def ofStop : Stop → Reply
  | .help => help
  | .version => version
  | .misused error => misused error

/-- The reply with the result of an invocation. -/
def ofResult : Except Failure Json → Reply
  | .ok value => done value
  | .error failure => failed failure

/-- The exit code. -/
def exitCode : Reply → Nat
  | help | version | done _ => 0
  | failed _ => 1
  | misused _ => 2

/-- What the help prints. -/
def helpText : String :=
  programAbout ++ "\n\nUsage: " ++ programName ++ " [OPTIONS] <COMMAND>\n\nCommands: " ++
    ", ".intercalate (Subcommand.all.map Subcommand.name) ++ "\n"

/-- What the program prints as its answer. -/
def output : Reply → String
  | help => helpText
  | version => programName ++ " " ++ programVersion ++ "\n"
  | done value => value.sortNames.pretty ++ "\n"
  | misused _ | failed _ => ""

/-- What the program prints about a fault. -/
def complaint : Reply → String
  | misused error => error.message
  | failed failure => failure.report
  | help | version | done _ => ""

end Reply

/-- What the environment asks for. -/
structure Environment where
  /-- The languages file of lines that name none. -/
  languagesFile : Option String
  /-- The rules of the log. -/
  logRules : Option String
  deriving DecidableEq, Repr

/-- The reply to a command line, and the events that its log shows. -/
def respond (host : Host) (environment : Environment) (words : List String) : Reply × List Event :=
  match Invocation.parse words environment.languagesFile with
  | .error stop => (.ofStop stop, [])
  | .ok invocation =>
    let done := invocation.perform host
    (.ofResult done.1, done.2.filter (invocation.logFilter environment.logRules).shows)

end CoverageRegistry.Command
