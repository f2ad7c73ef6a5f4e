/-!
# Values of TOML documents

The values that the registry can meet in a document. Of a floating-point number only its text is
kept, since no setting holds one; a date-time is kept as its normal text.
-/
namespace CoverageRegistry.Toml

/-- A value of a document. -/
inductive Value where
  | string (text : String)
  | integer (value : Int)
  | float (text : String)
  | boolean (value : Bool)
  | dateTime (text : String)
  | array (items : List Value)
  | table (entries : List (String × Value))
  deriving Inhabited

/-- The single key of a date-time that is read where a table is expected; its value is the text of
the date-time. -/
def dateTimeKey : String := "$__toml_private_datetime"

namespace Value

/-- The entries of a value that is read as a table. -/
def entries? : Value → Option (List (String × Value))
  | table entries => some entries
  | dateTime text => some [(dateTimeKey, string text)]
  | _ => none

/-- The text of a string. -/
def text? : Value → Option String
  | string text => some text
  | _ => none

/-- The texts of an array of strings. -/
def texts? : Value → Option (List String)
  | array items => items.mapM text?
  | _ => none

/-- The value of a key of a table. -/
def field? (key : String) (entries : List (String × Value)) : Option Value :=
  (entries.find? fun entry => entry.1 = key).map Prod.snd

end Value

end CoverageRegistry.Toml
