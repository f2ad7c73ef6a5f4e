import CoverageRegistry.Command.Needs
import Std.Time.DateTime.Timestamp

/-!
# The executable

Gathers what the program needs to know of its host, lets it reply, and prints the reply. The answer
goes to the standard output, the log and every complaint to the standard error.
-/
namespace CoverageRegistry.Command

/-- The environment variable that names a languages file. -/
def languagesVariable : String := "COVREG_LANGUAGES"

/-- The environment variable with the rules of the log. -/
def logVariable : String := "RUST_LOG"

/-- Whether a code is the number of an error, which is reported as it is or negated. -/
def isErrorNumber (number code : UInt32) : Bool :=
  code == number || code == -number

/-- The failure that the system reports. -/
def fileError : IO.Error → FileError
  | .noFileOrDirectory .. => .notFound
  | .inappropriateType _ code _ =>
    if isErrorNumber 21 code then .isDirectory else .notDirectory
  | error@(.invalidArgument _ code _) =>
    if isErrorNumber 36 code then .nameTooLong else .other (toString error)
  | error => .other (toString error)

/-- What a file holds. -/
def readFile (path : Path) : IO (Path × Except FileError (List UInt8)) := do
  try
    return (path, .ok (← IO.FS.readBinFile path.display).toList)
  catch error =>
    return (path, .error (fileError error))

/-- Whether a directory exists: only a directory has an entry for itself. -/
def directoryExists (path : Path) : IO Bool := do
  try
    let _ ← IO.FS.realPath (path.display ++ "/.")
    return true
  catch _ =>
    return false

/-- Gathers what an invocation needs to know. -/
def gather (invocation : Invocation) (currentDir : Path) : IO Gathered := do
  let contents ← invocation.files.mapM readFile
  let files := (Gathered.mk contents []).fileSystem
  let directories ← (invocation.directories files currentDir).filterM directoryExists
  return ⟨contents, directories⟩

/-- A fresh name for a run: random octets in five groups of hexadecimal digits. -/
def freshRunId : IO String := do
  let octets := (← IO.getRandomBytes 16).toList
  let group (start size : Nat) : String := Sha256.hex ((octets.drop start).take size)
  return "-".intercalate [group 0 4, group 4 2, group 6 2, group 8 2, group 10 6]

/-- The present time. -/
def presentTime : IO Timestamp := do
  let since := (← Std.Time.Timestamp.now).toDurationSinceUnixEpoch
  return ⟨since.second.val, since.nano.val.toNat⟩

/-- A line of the log. -/
def logLine (jsonLog : Bool) (event : Event) : String :=
  if jsonLog then event.toJson.compact
  else event.level.name ++ " " ++ event.fieldsToJson.compact

end CoverageRegistry.Command

open CoverageRegistry CoverageRegistry.Command

def main (words : List String) : IO UInt32 := do
  let environment : Environment :=
    ⟨← IO.getEnv languagesVariable, ← IO.getEnv logVariable⟩
  let currentDir := Path.ofText (← IO.currentDir).toString
  let invocation := Invocation.parse words environment.languagesFile
  let gathered ← match invocation with
    | .ok invocation => gather invocation currentDir
    | .error _ => pure ⟨[], []⟩
  let host : Host :=
    { files := gathered.fileSystem, currentDir := currentDir, now := ← presentTime, millis := 0
      runId := ← freshRunId }
  let (reply, log) := respond host environment words
  let jsonLog := match invocation with
    | .ok invocation => invocation.jsonLog
    | .error _ => false
  for event in log do
    IO.eprintln (logLine jsonLog event)
  IO.eprint reply.complaint
  IO.print reply.output
  return reply.exitCode.toUInt32
