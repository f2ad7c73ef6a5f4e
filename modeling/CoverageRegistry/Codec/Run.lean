import CoverageRegistry.Codec.Report
import CoverageRegistry.Run

/-!
# JSON forms of sensors and runs

The record of a sensor is flat: the members of its status stand among its own. The members that are
not its own are held back until the status is read from them, so each must be usable and may nest
only so deep.
-/
namespace CoverageRegistry

open Codec

/-- How deep arrays and objects nest below the outermost one. -/
def nestingRoom : Nat := 126

namespace SensorDescriptor

def toJson (descriptor : SensorDescriptor) : Json :=
  .object [("name", .string descriptor.name),
    ("only_on_language", .ofOption (descriptor.onlyOnLanguage.map .string))]

def ofJson? (value : Json) : Option SensorDescriptor := do
  match ← record? ["name", "only_on_language"] value with
  | [name, only] => return ⟨← required Json.text? name, ← optional Json.text? only⟩
  | _ => none

end SensorDescriptor

namespace SensorOutcome

def toJson (outcome : SensorOutcome) : Json :=
  .object [("contributed", .nat outcome.contributed), ("rejected", .nat outcome.rejected)]

def ofJson? (value : Json) : Option SensorOutcome := do
  match ← record? ["contributed", "rejected"] value with
  | [contributed, rejected] =>
    return ⟨← required Json.word? contributed, ← required Json.word? rejected⟩
  | _ => none

end SensorOutcome

namespace SensorStatus

/-- The variants of a status, without what a failure carries. -/
inductive Tag where
  | finished
  | skipped
  | failed
  deriving DecidableEq, Repr

/-- The name of a variant. -/
def Tag.name : Tag → String
  | finished => "finished"
  | skipped => "skipped"
  | failed => "failed"

/-- All variants, in order. -/
def Tag.all : List Tag := [.finished, .skipped, .failed]

/-- The variant of a name. -/
def Tag.ofName? (name : String) : Option Tag :=
  all.find? fun tag => tag.name = name

/-- The members that a status adds to the object it stands in. -/
def members : SensorStatus → List (String × Json)
  | finished => [("status", .string Tag.finished.name)]
  | skipped => [("status", .string Tag.skipped.name)]
  | failed error => [("status", .string Tag.failed.name), ("error", .string error)]

def toJson (status : SensorStatus) : Json := .object status.members

/-- The status of a variant and the members beside it. -/
def ofTag? (tag : Tag) (members : List (String × Json)) : Option SensorStatus :=
  match tag with
  | .finished => some finished
  | .skipped => some skipped
  | .failed => do
    let field ← single? "error" members
    return failed (← required Json.text? field)

/-- The status of a variant and the items after it. -/
def ofItems? (tag : Tag) (items : List Json) : Option SensorStatus :=
  match tag, items with
  | .finished, [] => some finished
  | .skipped, [] => some skipped
  | .failed, [error] => error.text?.map failed
  | _, _ => none

/-- The variant that a member of an object names; among held back members its position in the list
of variants will do. -/
def heldTag? : Json → Option Tag
  | .string name => Tag.ofName? name
  | .integer (.ofNat n) => Tag.all[n]?
  | _ => none

/-- The status among members that were held back. -/
def ofHeld? (members : List (String × Json)) : Option SensorStatus := do
  let field ← single? "status" members
  ofTag? (← required heldTag? field) members

def ofJson? (value : Json) : Option SensorStatus :=
  match value with
  | .object members =>
    if members.all fun member => member.2.fits nestingRoom then do
      let field ← single? "status" members
      let name ← required Json.text? field
      ofTag? (← Tag.ofName? name) members
    else none
  | .array (tag :: items) =>
    if items.all (Json.fits nestingRoom) then do
      ofItems? (← tag.text?.bind Tag.ofName?) items
    else none
  | _ => none

end SensorStatus

namespace SensorReport

/-- The fields of a record that are its own. -/
def ownFields : List String := ["sensor", "module", "outcome", "duration_ms"]

def toJson (report : SensorReport) : Json :=
  .object ([("sensor", .string report.sensor), ("module", .string report.module)] ++
    report.status.members ++
    [("outcome", report.outcome.toJson), ("duration_ms", .nat report.millis)])

/-- Reads a record below so many arrays and objects. -/
def ofJsonBelow? (depth : Nat) (value : Json) : Option SensorReport := do
  let members ← value.members?
  let held := members.filter fun member => !ownFields.contains member.1
  if held.all fun member => member.2.fits (nestingRoom - depth) then
    match ← record? ownFields value with
    | [sensor, module, outcome, millis] =>
      return ⟨← required Json.text? sensor, ← required Json.text? module,
        ← SensorStatus.ofHeld? held, ← required SensorOutcome.ofJson? outcome,
        ← required Json.word? millis⟩
    | _ => none
  else none

def ofJson? (value : Json) : Option SensorReport := ofJsonBelow? 0 value

end SensorReport

namespace RunReport

/-- The analyzer outputs, by language. -/
def analyzerToJson? (analyzer : TextMap AnalyzerReportSet) : Option Json :=
  (analyzer.entries.mapM fun (entry : String × AnalyzerReportSet) => do
    return (entry.1, ← entry.2.toJson?)).map .object

/-- Reads the analyzer outputs; of two with one language the later one counts. -/
def analyzerOfJson? (value : Json) : Option (TextMap AnalyzerReportSet) := do
  let entries ← (← value.members?).mapM fun (member : String × Json) => do
    return (member.1, ← AnalyzerReportSet.ofJson? member.2)
  return .ofList entries

def toJson? (report : RunReport) : Option Json := do
  return .object [("run_id", .string report.runId),
    ("coverage", .array (← report.coverage.mapM CoverageReportSet.toJson?)),
    ("analyzer", ← analyzerToJson? report.analyzer),
    ("sensors", .array (report.sensors.map SensorReport.toJson))]

def ofJson? (value : Json) : Option RunReport := do
  match ← record? ["run_id", "coverage", "analyzer", "sensors"] value with
  | [runId, coverage, analyzer, sensors] =>
    return ⟨← required Json.text? runId, ← required (list? CoverageReportSet.ofJson?) coverage,
      ← required analyzerOfJson? analyzer,
      ← required (list? (SensorReport.ofJsonBelow? 2)) sensors⟩
  | _ => none

end RunReport

namespace FieldValue

def toJson : FieldValue → Json
  | text value => .string value
  | count value => .nat value
  | flag value => .bool value

end FieldValue

namespace Event

/-- The fields of an event as an object. -/
def fieldsToJson (event : Event) : Json :=
  .object (event.fields.map fun field => (field.1, field.2.toJson))

/-- An event as a line of a log. -/
def toJson (event : Event) : Json :=
  .object [("level", .string event.level.name), ("fields", event.fieldsToJson)]

end Event

end CoverageRegistry
