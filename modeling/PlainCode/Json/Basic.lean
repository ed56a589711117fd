import PlainCode.Json.Double
import PlainCode.Text.Quoted

/-!
# JSON values

The values that requests and answers are made of. Fields of an object keep their order. `display?`
is the text of a value inside a message, and `plain?` the text of a value that is asked for as text:
a string is then itself. A whole number of more than 4300 digits is refused wherever it would have
to be written, so a value with such a number in it has no text; `display` spells out every number.
-/

namespace PlainCode

/-- A JSON value. Whole numbers are exact. -/
inductive Json where
  | null
  | bool (b : Bool)
  | int (n : Int)
  | double (x : Double)
  | str (s : String)
  | arr (items : List Json)
  | obj (fields : List (String × Json))
  deriving Inhabited

namespace Json

/-- The value of a field of an object, or nothing for a missing field or another kind of value. -/
def field? (key : String) : Json → Option Json
  | .obj fields => fields.lookup key
  | _ => none

/-- The value of a field, or another one in its place where the field is missing. -/
def fieldD (j : Json) (key : String) (default : Json) : Json := (j.field? key).getD default

/-- Whether a value counts as given: `null`, `false`, zero and everything empty do not. -/
def isGiven : Json → Bool
  | .null => false
  | .bool b => b
  | .int n => n != 0
  | .double x => !x.isZero
  | .str s => s != ""
  | .arr items => !items.isEmpty
  | .obj fields => !fields.isEmpty

/-- The fields with one of them set: a field that is there keeps its place, a new one is last. -/
def setField (key : String) (value : Json) : List (String × Json) → List (String × Json)
  | [] => [(key, value)]
  | (k, v) :: rest => if k = key then (k, value) :: rest else (k, v) :: setField key value rest

/-- The most digits that a whole number is written with, or read from. -/
def mostDigits : Nat := 4300

/-- What is said about a whole number of more digits. -/
def tooLong : String :=
  "Exceeds the limit (" ++ toString mostDigits ++ " digits) for integer string conversion; " ++
    "use sys.set_int_max_str_digits() to increase the limit"

mutual

/-- Whether a value can be written: no whole number in it has too many digits. -/
def isWritable : Json → Bool
  | .int n => n.natAbs < Double.tenTo mostDigits
  | .arr items => areWritable items
  | .obj fields => fieldsAreWritable fields
  | _ => true

/-- Whether the items of a list can be written. -/
def areWritable : List Json → Bool
  | [] => true
  | item :: items => isWritable item && areWritable items

/-- Whether the fields of an object can be written. -/
def fieldsAreWritable : List (String × Json) → Bool
  | [] => true
  | (_, value) :: fields => isWritable value && fieldsAreWritable fields

end

mutual

/-- The text of a value inside a message, however long its numbers are. -/
def display : Json → String
  | .null => "None"
  | .bool b => if b then "True" else "False"
  | .int n => toString n
  | .double x => x.text
  | .str s => Text.quoted s
  | .arr items => "[" ++ ", ".intercalate (displayItems items) ++ "]"
  | .obj fields => "\x7b" ++ ", ".intercalate (displayFields fields) ++ "\x7d"

/-- The texts of the items of a list. -/
def displayItems : List Json → List String
  | [] => []
  | item :: items => display item :: displayItems items

/-- The texts of the fields of an object. -/
def displayFields : List (String × Json) → List String
  | [] => []
  | (key, value) :: fields => (Text.quoted key ++ ": " ++ display value) :: displayFields fields

end

/-- The text of a value inside a message, if it can be written. -/
def display? (value : Json) : Option String :=
  if value.isWritable then some value.display else none

/-- A value as text, if it can be written: a string is itself, any other value is displayed. -/
def plain? : Json → Option String
  | .str s => some s
  | value => value.display?

/-- A list of strings. -/
def strings (ss : List String) : Json := .arr (ss.map .str)

/-- A whole number, or `null` for none. -/
def ofInt? : Option Int → Json
  | none => .null
  | some n => .int n

/-- A string, or `null` for none. -/
def ofString? : Option String → Json
  | none => .null
  | some s => .str s

end Json

end PlainCode
