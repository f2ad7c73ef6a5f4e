import CoverageRegistry.Error
import CoverageRegistry.Event
import CoverageRegistry.Path.Order
import Std.Data.TreeSet

/-!
# The collector of report paths

The registry of one run and one language. Sensors contribute paths to its buckets; the first read
seals it, and a sealed collector refuses every contribution. A bucket keeps the first of several
paths that name the same place, in the order of arrival, with the module that contributed it.

An operation answers with its result, the collector after it, and the events it reports.
-/
namespace CoverageRegistry

/-- The key of a module of the analysed project. -/
abbrev ModuleKey := String

/-- A contributed path and where it came from. -/
structure ReportEntry where
  path : Path
  module : Option ModuleKey
  kind : ReportKind
  scope : Option TestScope
  deriving DecidableEq, Repr

/-- A report file of an analyzer and the module whose build wrote it. -/
structure RoslynReport where
  module : ModuleKey
  path : Path
  deriving DecidableEq, Repr

/-- The stages of a collector's life. -/
inductive Phase where
  /-- Nothing was contributed. -/
  | init
  /-- Something was contributed. -/
  | collecting
  /-- It was read; nothing can be contributed any more. -/
  | sealed
  deriving DecidableEq, Repr

/-- The entries of one bucket. -/
structure Bucket where
  key : BucketKey
  /-- The entries in the order of arrival. -/
  entries : List ReportEntry
  /-- The paths of the entries, for finding the ones that are known. -/
  seen : Std.TreeSet Path

namespace Bucket

/-- The bucket of a key, without entries. -/
def empty (key : BucketKey) : Bucket := ⟨key, [], ∅⟩

/-- Adds an entry unless its path names the place of an earlier one; answers whether it did. -/
def push (bucket : Bucket) (entry : ReportEntry) : Bucket × Bool :=
  if bucket.seen.contains entry.path then (bucket, false)
  else
    ({ bucket with
        entries := bucket.entries ++ [entry]
        seen := bucket.seen.insert entry.path }, true)

/-- Adds entries in order; answers how many it added. -/
def pushAll (bucket : Bucket) : List ReportEntry → Bucket × Nat
  | [] => (bucket, 0)
  | entry :: rest =>
    let first := bucket.push entry
    let others := first.1.pushAll rest
    (others.1, first.2.toNat + others.2)

end Bucket

/-- The registry of report paths. -/
structure Collector where
  /-- The language whose reports it holds, where it is bound to one. -/
  language : Option String
  phase : Phase
  /-- The buckets that hold something, in the order of their first contribution. -/
  buckets : List Bucket

namespace Collector

/-- A fresh collector that is bound to no language. -/
def unbound : Collector := ⟨none, .init, []⟩

/-- A fresh collector for the reports of one language. -/
def forLanguage (language : String) : Collector := ⟨some language, .init, []⟩

/-- What an operation answers with. -/
structure Answer (α : Type) where
  result : α
  collector : Collector
  events : List Event

/-- Whether the collector is sealed. -/
def isSealed (c : Collector) : Bool :=
  c.phase = .sealed

/-- The entries of all buckets. -/
def allEntries (c : Collector) : List ReportEntry :=
  c.buckets.flatMap Bucket.entries

/-- The number of paths in all buckets. -/
def totalPaths (c : Collector) : Nat :=
  c.allEntries.length

/-- The bucket of a key, empty where nothing was contributed to it. -/
def bucket (c : Collector) (key : BucketKey) : Bucket :=
  (c.buckets.find? fun bucket => bucket.key = key).getD (.empty key)

/-- The buckets with the one of a key replaced; a missing one is put at the end. -/
def putBucket (key : BucketKey) (bucket : Bucket) : List Bucket → List Bucket
  | [] => [bucket]
  | first :: rest =>
    if first.key = key then bucket :: rest else first :: putBucket key bucket rest

/-- Offers entries to a bucket and answers how many were new. A sealed collector refuses even an
empty batch; otherwise an empty batch changes nothing. -/
def offer (c : Collector) (key : BucketKey) (entries : List ReportEntry) :
    Answer (Except RegistryError Nat) :=
  if c.isSealed then
    let error := RegistryError.registrySealed key.kind key.scope
    ⟨.error error, c, [.contributionRejected key.kind key.scope error.message]⟩
  else if entries.isEmpty then ⟨.ok 0, c, []⟩
  else
    let pushed := (c.bucket key).pushAll entries
    let added := pushed.2
    ⟨.ok added,
      { c with phase := .collecting, buckets := putBucket key pushed.1 c.buckets },
      [.pathsAdded key.kind key.scope added (entries.length - added)]⟩

/-- Offers paths to the bucket of a kind and a scope, all with the same module. -/
def contribute (c : Collector) (module : Option ModuleKey) (kind : ReportKind)
    (scope : Option TestScope) (paths : List Path) : Answer (Except RegistryError Nat) :=
  match BucketKey.make kind scope with
  | .error error => ⟨.error error, c, []⟩
  | .ok key => c.offer key (paths.map fun path => ⟨path, module, kind, scope⟩)

/-- Contributes paths and answers how many were new. -/
def addPaths (c : Collector) (kind : ReportKind) (scope : Option TestScope) (paths : List Path) :
    Answer (Except RegistryError Nat) :=
  c.contribute none kind scope paths

/-- Contributes the paths of a module. -/
def addModulePaths (c : Collector) (module : ModuleKey) (kind : ReportKind)
    (scope : Option TestScope) (paths : List Path) : Answer (Except RegistryError Nat) :=
  c.contribute (some module) kind scope paths

/-- Contributes output directories of an analyzer. -/
def addProtobufDirs (c : Collector) (paths : List Path) : Answer (Except RegistryError Nat) :=
  c.contribute none .protobuf none paths

/-- Contributes report files of an analyzer, each with its module. -/
def addRoslynReports (c : Collector) (reports : List RoslynReport) :
    Answer (Except RegistryError Nat) :=
  c.offer .roslyn (reports.map fun report => ⟨report.path, some report.module, .roslyn, none⟩)

/-- The entries of a kind and a scope, in the order of arrival; none where they make no bucket. -/
def entries (c : Collector) (kind : ReportKind) (scope : Option TestScope) : List ReportEntry :=
  match BucketKey.make kind scope with
  | .error _ => []
  | .ok key => (c.bucket key).entries

/-- The paths of a kind and a scope. -/
def snapshot (c : Collector) (kind : ReportKind) (scope : Option TestScope) : List Path :=
  (c.entries kind scope).map ReportEntry.path

/-- The report files of the analyzer that a module contributed. -/
def roslynReports (c : Collector) : List RoslynReport :=
  (c.entries .roslyn none).filterMap fun entry =>
    entry.module.map fun module => ⟨module, entry.path⟩

/-- Stops accepting contributions; answers whether this call did it. -/
def sealUp (c : Collector) : Answer Bool :=
  if c.isSealed then ⟨false, c, []⟩
  else ⟨true, { c with phase := .sealed }, [.registrySealed c.totalPaths]⟩

/-- The event of the end of the collector. -/
def discard (c : Collector) : Event :=
  .registryDiscarded c.totalPaths

end Collector

end CoverageRegistry
