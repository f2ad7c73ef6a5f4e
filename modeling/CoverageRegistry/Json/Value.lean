/-!
# JSON values

The values of JSON texts, with what readers of such values ask of them.
-/
namespace CoverageRegistry

/-- A value of a JSON text. -/
inductive Json where
  | null
  | bool (value : Bool)
  | integer (value : Int)
  /-- A number with a fraction or an exponent: `digits * 10 ^ exponent`. -/
  | decimal (digits exponent : Int)
  | string (text : String)
  | array (items : List Json)
  /-- The members in the order of the text; a name may come twice. -/
  | object (members : List (String × Json))
  /-- What follows the grammar but has no value: a string that is no text, an object with such a
  name, a number beyond the range of a double. -/
  | unusable
  deriving Inhabited

namespace Json

/-- A natural number. -/
def nat (n : Nat) : Json := integer n

/-- An optional value; `null` where it is missing. -/
def ofOption : Option Json → Json
  | some value => value
  | none => null

/-- An array of strings. -/
def strings (texts : List String) : Json :=
  array (texts.map string)

/-- The text of a string. -/
def text? : Json → Option String
  | string text => some text
  | _ => none

/-- A natural number of 64 bits. -/
def word? : Json → Option Nat
  | integer (.ofNat n) => if n < UInt64.size then some n else none
  | _ => none

/-- The items of an array. -/
def items? : Json → Option (List Json)
  | array items => some items
  | _ => none

/-- The members of an object. -/
def members? : Json → Option (List (String × Json))
  | object members => some members
  | _ => none

/-- The value of the first member of a name. -/
def field? (name : String) : Json → Option Json
  | object members => (members.find? fun member => member.1 = name).map Prod.snd
  | _ => none

mutual

/-- Whether every part of a value is usable and its arrays and objects nest at most so deep. -/
def fits : Nat → Json → Bool
  | _, unusable => false
  | 0, array _ => false
  | 0, object _ => false
  | room + 1, array items => fitsItems room items
  | room + 1, object members => fitsMembers room members
  | _, _ => true

/-- Whether every item fits. -/
def fitsItems : Nat → List Json → Bool
  | _, [] => true
  | room, item :: rest => fits room item && fitsItems room rest

/-- Whether the value of every member fits. -/
def fitsMembers : Nat → List (String × Json) → Bool
  | _, [] => true
  | room, (_, value) :: rest => fits room value && fitsMembers room rest

end

end Json

end CoverageRegistry
