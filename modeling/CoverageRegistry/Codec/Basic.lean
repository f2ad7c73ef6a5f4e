import CoverageRegistry.Json.Value

/-!
# Shapes of JSON forms

How records and choices are read. A record is an object with each of its fields at most once, where
other members are passed over, or an array of exactly its fields in order. A choice is the name of a
variant, or an object with that name alone and `null` for it.
-/
namespace CoverageRegistry.Codec

/-- The values of the members of a name. -/
def valuesOf (name : String) (members : List (String × Json)) : List Json :=
  (members.filter fun member => member.1 = name).map Prod.snd

/-- The value of a field that comes at most once; the outer `none` is a repeated field. -/
def single? (name : String) (members : List (String × Json)) : Option (Option Json) :=
  match valuesOf name members with
  | [] => some none
  | [value] => some (some value)
  | _ => none

/-- The values of the fields of a record. -/
def record? (names : List String) : Json → Option (List (Option Json))
  | .object members => names.mapM fun name => single? name members
  | .array items => if items.length = names.length then some (items.map some) else none
  | _ => none

/-- Reads a field that must be there. -/
def required {α : Type} (read : Json → Option α) (field : Option Json) : Option α :=
  field.bind read

/-- Reads a field that may be missing or `null`. -/
def optional {α : Type} (read : Json → Option α) : Option Json → Option (Option α)
  | none => some none
  | some .null => some none
  | some value => (read value).map some

/-- The name of a variant. -/
def variant? : Json → Option String
  | .string name => some name
  | .object [(name, .null)] => some name
  | _ => none

/-- The variant of a name. -/
def choice? {α : Type} (name : α → String) (variants : List α) (value : Json) : Option α := do
  let chosen ← variant? value
  variants.find? fun variant => name variant = chosen

/-- Reads every item of an array. -/
def list? {α : Type} (read : Json → Option α) (value : Json) : Option (List α) := do
  (← value.items?).mapM read

end CoverageRegistry.Codec
