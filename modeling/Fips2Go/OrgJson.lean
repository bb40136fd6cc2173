import Fips2Go.Utf8Text

/-!
# Values of `org.json`

Parsed JSON and its lenient accessors: a value of another kind is converted, or
taken for a missing one.  How texts are parsed, and how arrays and objects are
displayed, is up to the platform.
-/

namespace OrgJson

open Utf8Text (Text eqIgnoreAsciiCase)

/-- A number by its `intValue` and its text. -/
inductive Value where
  | null
  | bool (value : Bool)
  | number (int : Int) (text : Text)
  | string (text : Text)
  | array (values : List Value)
  | object (fields : List (Text × Value))

abbrev Object := List (Text × Value)

/-- The constructor of `JSONObject`, the integer part of a number in a string, and
`toString` of arrays and objects. -/
structure Platform where
  parse : Text → Option Object
  parseInt : Text → Option Int
  display : Value → Text

def opt (object : Object) (name : Text) : Option Value :=
  (object.find? fun field => field.1 = name).map Prod.snd

/-- `JSON.toString`. -/
def Value.text (platform : Platform) : Value → Text
  | .null => "null".toList
  | .bool true => "true".toList
  | .bool false => "false".toList
  | .number _ text => text
  | .string text => text
  | .array values => platform.display (.array values)
  | .object fields => platform.display (.object fields)

def getString (platform : Platform) (object : Object) (name : Text) : Option Text :=
  (opt object name).map (Value.text platform)

def optString (platform : Platform) (object : Object) (name : Text) : Text :=
  (getString platform object name).getD []

def optBoolean (object : Object) (name : Text) : Bool :=
  match opt object name with
  | some (.bool value) => value
  | some (.string text) => eqIgnoreAsciiCase text "true".toList
  | _ => false

def getInt (platform : Platform) (object : Object) (name : Text) : Option Int :=
  match opt object name with
  | some (.number int _) => some int
  | some (.string text) => platform.parseInt text
  | _ => none

def optArray (object : Object) (name : Text) : Option (List Value) :=
  match opt object name with
  | some (.array values) => some values
  | _ => none

/-- `optJSONObject` of an element. -/
def Value.object? : Value → Option Object
  | .object fields => some fields
  | _ => none

end OrgJson
