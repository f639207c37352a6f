import ExportCover.Json.Basic

/-!
# Reading structured values

The strict grammar of JSON, on lists of characters. A key that occurs again overrides the value and
keeps the place of the first occurrence. `NaN` and the infinities are accepted as numbers.
-/

namespace ExportCover.Json

/-- The rest of the input after blanks. -/
def skipBlanks (cs : List Char) : List Char :=
  cs.dropWhile fun c => c == ' ' || c == '\t' || c == '\n' || c == '\r'

/-- The value of a digit in base sixteen. -/
def hexValue? (c : Char) : Option Nat :=
  if c.isDigit then some (c.toNat - '0'.toNat)
  else if 'a' ≤ c ∧ c ≤ 'f' then some (c.toNat - 'a'.toNat + 10)
  else if 'A' ≤ c ∧ c ≤ 'F' then some (c.toNat - 'A'.toNat + 10)
  else none

/-- Four digits in base sixteen. -/
def readUnit : List Char → Option (Nat × List Char)
  | a :: b :: c :: d :: rest => do
    let value := (← hexValue? a) * 4096 + (← hexValue? b) * 256 + (← hexValue? c) * 16 + (← hexValue? d)
    return (value, rest)
  | _ => none

/-- The character of a numbered escape. Two units of a surrogate pair make one character. -/
def readNumbered (cs : List Char) : Option (Char × List Char) := do
  let (high, rest) ← readUnit cs
  if 0xD800 ≤ high ∧ high < 0xDC00 then
    match rest with
    | '\\' :: 'u' :: more =>
      match readUnit more with
      | some (low, rest') =>
        if 0xDC00 ≤ low ∧ low < 0xE000 then
          return (Char.ofNat (0x10000 + (high - 0xD800) * 0x400 + (low - 0xDC00)), rest')
        else return ('\uFFFD', rest)
      | none => none
    | _ => return ('\uFFFD', rest)
  else if 0xDC00 ≤ high ∧ high < 0xE000 then return ('\uFFFD', rest)
  else return (Char.ofNat high, rest)

/-- The characters that follow a backslash and stand for one character. -/
def simpleEscape? : Char → Option Char
  | '\x22' => some '\x22'
  | '\\' => some '\\'
  | '/' => some '/'
  | 'b' => some '\x08'
  | 'f' => some '\x0c'
  | 'n' => some '\n'
  | 'r' => some '\r'
  | 't' => some '\t'
  | _ => none

/-- The characters of a text up to its closing quote, in at most `fuel` steps. -/
def readText : Nat → List Char → Option (List Char × List Char)
  | 0, _ => none
  | fuel + 1, cs =>
    match cs with
    | [] => none
    | '\x22' :: rest => some ([], rest)
    | '\\' :: 'u' :: rest => do
      let (c, rest) ← readNumbered rest
      let (text, rest) ← readText fuel rest
      return (c :: text, rest)
    | '\\' :: e :: rest => do
      let c ← simpleEscape? e
      let (text, rest) ← readText fuel rest
      return (c :: text, rest)
    | c :: rest => do
      if c.toNat < 0x20 || c == '\\' then none
      let (text, rest) ← readText fuel rest
      return (c :: text, rest)

/-- The number that decimal digits write. -/
def ofDigits (digits : List Char) : Nat :=
  digits.foldl (fun n c => n * 10 + (c.toNat - '0'.toNat)) 0

/-- The fraction at the start of the input, if one stands there. -/
def readFraction : List Char → List Char × List Char
  | '.' :: rest =>
    let digits := rest.takeWhile Char.isDigit
    if digits.isEmpty then ([], '.' :: rest) else ('.' :: digits, rest.dropWhile Char.isDigit)
  | cs => ([], cs)

/-- The exponent at the start of the input, if one stands there. -/
def readExponent (cs : List Char) : List Char × List Char :=
  match cs with
  | e :: rest =>
    if e == 'e' || e == 'E' then
      let sign := (rest.take 1).filter fun c => c == '+' || c == '-'
      let rest := rest.drop sign.length
      let digits := rest.takeWhile Char.isDigit
      if digits.isEmpty then ([], cs) else (e :: sign ++ digits, rest.dropWhile Char.isDigit)
    else ([], cs)
  | [] => ([], [])

/-- An unsigned number: a zero, or digits that start with another one, then a fraction and an
exponent. -/
def readNumber (negative : Bool) (cs : List Char) : Option (Json × List Char) := do
  let digits := match cs with
    | '0' :: _ => ['0']
    | _ => cs.takeWhile Char.isDigit
  if digits.isEmpty then none
  let (fraction, rest) := readFraction (cs.drop digits.length)
  let (exponent, rest) := readExponent rest
  let sign := if negative then ['-'] else []
  if fraction.isEmpty && exponent.isEmpty then
    let magnitude : Int := ofDigits digits
    return (.int (if negative then -magnitude else magnitude), rest)
  return (.decimal (String.ofList (sign ++ digits ++ fraction ++ exponent)), rest)

/-- The items of an array up to its closing bracket, each read by `item`. -/
def readItems (item : List Char → Option (Json × List Char)) :
    Nat → List Char → Option (List Json × List Char)
  | 0, _ => none
  | fuel + 1, cs => do
    let (value, rest) ← item cs
    match skipBlanks rest with
    | ',' :: rest =>
      let (values, rest) ← readItems item fuel rest
      return (value :: values, rest)
    | ']' :: rest => return ([value], rest)
    | _ => none

/-- The fields of an object up to its closing brace, each value read by `item`. -/
def readFields (item : List Char → Option (Json × List Char)) :
    Nat → List Char → Option (List (String × Json) × List Char)
  | 0, _ => none
  | fuel + 1, cs => do
    match skipBlanks cs with
    | '\x22' :: rest =>
      let (key, rest) ← readText (rest.length + 1) rest
      match skipBlanks rest with
      | ':' :: rest =>
        let (value, rest) ← item rest
        match skipBlanks rest with
        | ',' :: rest =>
          let (fields, rest) ← readFields item fuel rest
          return ((String.ofList key, value) :: fields, rest)
        | '\x7d' :: rest => return ([(String.ofList key, value)], rest)
        | _ => none
      | _ => none
    | _ => none

/-- Sets a field: in its place if the key is there, at the end otherwise. -/
def setField (key : String) (value : Json) : List (String × Json) → List (String × Json)
  | [] => [(key, value)]
  | field :: rest =>
    if field.1 == key then (key, value) :: rest else field :: setField key value rest

/-- The fields with every key once: the place of its first and the value of its last occurrence. -/
def mergeFields (fields : List (String × Json)) : List (String × Json) :=
  fields.foldl (fun merged field => setField field.1 field.2 merged) []

/-- The rest of the input after a word. -/
def afterWord (word : String) (cs : List Char) : Option (List Char) :=
  if word.toList.isPrefixOf cs then some (cs.drop word.toList.length) else none

/-- A value, nested at most `fuel` deep. -/
def readValue : Nat → List Char → Option (Json × List Char)
  | 0, _ => none
  | fuel + 1, cs =>
    match skipBlanks cs with
    | '\x22' :: rest => (readText (rest.length + 1) rest).map fun (text, rest) =>
      (.string (String.ofList text), rest)
    | '[' :: rest =>
      match skipBlanks rest with
      | ']' :: rest => some (.array [], rest)
      | _ => (readItems (readValue fuel) (rest.length + 1) rest).map fun (items, rest) =>
        (.array items, rest)
    | '\x7b' :: rest =>
      match skipBlanks rest with
      | '\x7d' :: rest => some (.object [], rest)
      | _ => (readFields (readValue fuel) (rest.length + 1) rest).map fun (fields, rest) =>
        (.object (mergeFields fields), rest)
    | '-' :: 'I' :: rest => (afterWord "nfinity" rest).map fun rest => (.decimal "-Infinity", rest)
    | '-' :: rest => readNumber true rest
    | 'I' :: rest => (afterWord "nfinity" rest).map fun rest => (.decimal "Infinity", rest)
    | 'N' :: rest => (afterWord "aN" rest).map fun rest => (.decimal "NaN", rest)
    | 'n' :: rest => (afterWord "ull" rest).map fun rest => (.null, rest)
    | 't' :: rest => (afterWord "rue" rest).map fun rest => (.bool true, rest)
    | 'f' :: rest => (afterWord "alse" rest).map fun rest => (.bool false, rest)
    | rest => readNumber false rest

/-- The value that a text writes, if the whole text is one. -/
def parse? (s : String) : Option Json := do
  let (value, rest) ← readValue (s.toList.length + 1) s.toList
  if (skipBlanks rest).isEmpty then some value else none

end ExportCover.Json
