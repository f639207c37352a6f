import ExportCover.Text.Quoted

/-!
# Structured values

The values that a configuration file can hold. Objects keep their fields in the order in which they
were first written. A number with a fraction or an exponent is kept as it was written.
-/

namespace ExportCover

/-- A value of a configuration file. -/
inductive Json where
  | null
  | bool (value : Bool)
  | int (value : Int)
  | decimal (text : String)
  | string (text : String)
  | array (items : List Json)
  | object (fields : List (String × Json))
deriving Repr, Inhabited

namespace Json

/-- A list of texts as a value. -/
def texts (items : List String) : Json :=
  .array (items.map .string)

/-- The text, if the value is one. -/
def text? : Json → Option String
  | .string s => some s
  | _ => none

/-- The value that an `if` takes for true: everything but `null`, `false`, zero and what is empty. -/
def isTruthy : Json → Bool
  | .null => false
  | .bool b => b
  | .int n => n != 0
  | .decimal _ => true
  | .string s => s != ""
  | .array items => !items.isEmpty
  | .object fields => !fields.isEmpty

/-- The number of parts of a value that has parts. -/
def size? : Json → Option Nat
  | .string s => some s.toList.length
  | .array items => some items.length
  | .object fields => some fields.length
  | _ => none

/-- The parts of a value that can be gone through: the items of an array, the characters of a text,
the keys of an object. -/
def parts? : Json → Option (List Json)
  | .string s => some (s.toList.map fun c => .string (String.ofList [c]))
  | .array items => some items
  | .object fields => some (fields.map fun field => .string field.1)
  | _ => none

/-- The value can be a member of a set of names. -/
def isScalar : Json → Bool
  | .array _ => false
  | .object _ => false
  | _ => true

mutual

/-- How a value is shown inside another one. -/
def inspect : Json → String
  | .null => "None"
  | .bool true => "True"
  | .bool false => "False"
  | .int n => toString n
  | .decimal text => text
  | .string s => Text.quoted s
  | .array items => "[" ++ ", ".intercalate (inspectItems items) ++ "]"
  | .object fields => "\x7b" ++ ", ".intercalate (inspectFields fields) ++ "\x7d"

/-- How the items of an array are shown. -/
def inspectItems : List Json → List String
  | [] => []
  | item :: rest => inspect item :: inspectItems rest

/-- How the fields of an object are shown. -/
def inspectFields : List (String × Json) → List String
  | [] => []
  | (key, value) :: rest => (Text.quoted key ++ ": " ++ inspect value) :: inspectFields rest

end

/-- How a value is shown in a line of text: a text as it is, anything else as `inspect` shows it. -/
def display : Json → String
  | .string s => s
  | value => value.inspect

end Json

end ExportCover
