import ExportCover.Json.Basic

/-!
# Writing structured values

A value is written with its parts on lines of their own, indented by two blanks for each level.
Characters outside ASCII stay as they are.
-/

namespace ExportCover.Json

/-- How a character is written inside a text. -/
def escaped (c : Char) : String :=
  match c with
  | '\x22' => "\\\""
  | '\\' => "\\\\"
  | '\n' => "\\n"
  | '\r' => "\\r"
  | '\t' => "\\t"
  | '\x0c' => "\\f"
  | '\x08' => "\\b"
  | _ => if c.toNat < 0x20 then "\\u" ++ Text.hex 4 c.toNat else String.ofList [c]

/-- A text between its quotes. -/
def textLiteral (s : String) : String :=
  "\"" ++ String.join (s.toList.map escaped) ++ "\""

/-- The start of a line at a level. -/
def margin (level : Nat) : String :=
  String.ofList ('\n' :: List.replicate (2 * level) ' ')

mutual

/-- A value whose closing bracket stands at `level`. -/
def renderAt (level : Nat) : Json → String
  | .null => "null"
  | .bool true => "true"
  | .bool false => "false"
  | .int n => toString n
  | .decimal text => text
  | .string s => textLiteral s
  | .array items =>
    if items.isEmpty then "[]"
    else "[" ++ ",".intercalate (renderItems (level + 1) items) ++ margin level ++ "]"
  | .object fields =>
    if fields.isEmpty then "\x7b\x7d"
    else "\x7b" ++ ",".intercalate (renderFields (level + 1) fields) ++ margin level ++ "\x7d"

/-- The items of an array, each on a line at `level`. -/
def renderItems (level : Nat) : List Json → List String
  | [] => []
  | item :: rest => (margin level ++ renderAt level item) :: renderItems level rest

/-- The fields of an object, each on a line at `level`. -/
def renderFields (level : Nat) : List (String × Json) → List String
  | [] => []
  | (key, value) :: rest =>
    (margin level ++ textLiteral key ++ ": " ++ renderAt level value) :: renderFields level rest

end

/-- A value as the text of a file, without the last line end. -/
def render (value : Json) : String :=
  renderAt 0 value

end ExportCover.Json
