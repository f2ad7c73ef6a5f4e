import CoverageRegistry.Command.Program

/-!
# What an invocation asks of the file system

Which files an invocation reads, and which directories its sensors look for. A host whose answers
were gathered beforehand needs to know no more than these.
-/
namespace CoverageRegistry.Command

/-- The files that an invocation reads. -/
def Invocation.files (invocation : Invocation) : List Path :=
  invocation.languagesFile.toList ++
    match invocation.action with
    | .collect collection => [collection.settings]
    | .keys .. | .languages => []

/-- The directories that the sensors of a collection look for. -/
def Collection.directories (collection : Collection) (files : FileSystem) (currentDir : Path)
    (table : LanguageTable) : List Path :=
  match (Settings.load files collection.settings).1, table.language collection.language with
  | .ok settings, .ok info =>
    let configuration : AnalyzerConfiguration :=
      ⟨info, settings, collection.baseDir currentDir⟩
    configuration.candidates
  | _, _ => []

/-- The directories that the sensors of an invocation look for; its files must be known. -/
def Invocation.directories (invocation : Invocation) (files : FileSystem) (currentDir : Path) :
    List Path :=
  match invocation.action, (loadTable files invocation.languagesFile).1 with
  | .collect collection, .ok table => collection.directories files currentDir table
  | _, _ => []

/-- Answers of a file system that were gathered beforehand. -/
structure Gathered where
  contents : List (Path × Except FileError (List UInt8))
  directories : List Path

/-- The file system of gathered answers; nothing else exists. -/
def Gathered.fileSystem (gathered : Gathered) : FileSystem where
  read path :=
    ((gathered.contents.find? fun entry => entry.1 = path).map Prod.snd).getD (.error .notFound)
  isDirectory path := gathered.directories.contains path

end CoverageRegistry.Command
