import ExportCover.Source.Cursor

/-!
# Tokens

Words, signs, numbers, texts, regular expressions and comments. The nodes of a text are the runs of
its characters between escapes, and the escapes themselves; an escape is never decoded.
-/

namespace ExportCover.Source

/-- A digit in base sixteen. -/
def isHexDigit (glyph : Glyph) : Bool :=
  glyph.char.isDigit || ('a' ≤ glyph.char && glyph.char ≤ 'f')
    || ('A' ≤ glyph.char && glyph.char ≤ 'F')

/-- A digit in base eight. -/
def isOctalDigit (glyph : Glyph) : Bool :=
  '0' ≤ glyph.char && glyph.char ≤ '7'

/-- The length of a numbered escape after its backslash: four digits, or digits in braces. -/
def numberedEscape : List Glyph → Nat
  | u :: rest =>
    if u.char != 'u' then 0
    else
      match rest with
      | brace :: more =>
        if brace.char == '\x7b' then
          let digits := (more.takeWhile isHexDigit).length
          if 0 < digits && spells ['\x7d'] (more.drop digits) then digits + 3 else 0
        else if 4 ≤ (rest.takeWhile isHexDigit).length then 5 else 0
      | [] => 0
  | [] => 0

/-- The signs that no word contains. -/
def signs : List Char :=
  [':', ';', '\x60', '\x22', '\x27', '@', '#', '.', ',', '|', '^', '&', '<', '=', '>', '+', '-', '*',
    '/', '\\', '%', '?', '!', '~', '(', ')', '[', ']', '\x7b', '\x7d']

/-- The character can stand in a word. -/
def isWordChar (glyph : Glyph) : Bool :=
  !glyph.faulty && 0x20 < glyph.char.toNat && !isBlank glyph && !signs.contains glyph.char

/-- The length of the word at the start of a text, after `skip` characters that belong to it. A word
does not start with a digit. -/
def wordLength : Nat → Bool → List Glyph → Nat
  | _, _, [] => 0
  | skip + 1, _, _ :: rest => wordLength skip false rest + 1
  | 0, isFirst, glyph :: rest =>
    if glyph.char == '\\' then
      match numberedEscape rest with
      | 0 => 0
      | n + 1 => wordLength (n + 1) false rest + 1
    else if isWordChar glyph && !(isFirst && glyph.char.isDigit) then wordLength 0 false rest + 1
    else 0

/-- Moves over a number of characters, at least one, and gives them. -/
def take (length : Nat) : Parser String := do
  guard (0 < length)
  let before ← get
  let after := before.skip length
  set after
  return before.textTo after

/-- The next word, reserved or not. -/
def word : Parser String := do
  skipTrivia
  take (wordLength 0 true (← get).rest)

/-- A given word. -/
def keyword (text : String) : Parser Unit := do
  guard ((← word) == text)

/-- One of the given words. -/
def oneOfWords (texts : List String) : Parser String := do
  let found ← word
  guard (texts.contains found)
  return found

/-- A given sign, right here. -/
def signHere (text : String) : Parser Unit := do
  guard (spells text.toList (← get).rest)
  modify (·.skip text.toList.length)

/-- A given sign. -/
def sign (text : String) : Parser Unit := do
  skipTrivia
  signHere text

/-- The first of the given signs that is there. -/
def oneOfSigns : List String → Parser String
  | [] => failure
  | text :: others => (do sign text; return text) <|> oneOfSigns others

/-- The arrow of a function. -/
def arrow : Parser Unit := sign "=>"

/-- The words that name no variable. -/
def reservedWords : List String :=
  ["break", "case", "catch", "class", "const", "continue", "debugger", "default", "delete", "do",
    "else", "enum", "export", "extends", "finally", "for", "function", "if", "import", "in",
    "instanceof", "new", "return", "switch", "throw", "try", "typeof", "var", "void", "while", "with"]

/-- A name of a variable. -/
def identifier : Parser Node :=
  nodeOver "identifier" do
    let name ← word
    guard !(reservedWords.contains name)
    return []

/-- A name of a property: any word. -/
def propertyIdentifier : Parser Node :=
  nodeOver "property_identifier" do
    let _ ← word
    return []

/-- A name of a private member. -/
def privateName : Parser Node :=
  nodeOver "private_property_identifier" do
    signHere "#"
    let _ ← take (wordLength 0 true (← get).rest)
    return []

/-- The end of the text. -/
def endOfText : Parser Unit := do
  skipTrivia
  guard (← get).rest.isEmpty

/-- The length of an escape in a text after its backslash. -/
def escapeLength : List Glyph → Nat
  | [] => 0
  | glyph :: rest =>
    if glyph.char == 'x' then
      if 2 ≤ (rest.takeWhile isHexDigit).length then 3 else 0
    else if glyph.char == 'u' then numberedEscape (glyph :: rest)
    else if isOctalDigit glyph then min 3 ((glyph :: rest).takeWhile isOctalDigit).length
    else if glyph.char == '\r' && spells ['\n'] rest then 2
    else 1

/-- An escape in a text. -/
def escapeSequence : Parser Node := do
  let start ← get
  signHere "\\"
  let _ ← take (escapeLength (← get).rest)
  let stop ← get
  return ⟨"escape_sequence", none, true, start.textTo stop, start.point, stop.point, []⟩

/-- A run of characters of a text between its escapes and its end. -/
def stringFragment (quote : Char) : Parser Node := do
  let start ← get
  let length := (start.rest.takeWhile fun glyph =>
    !([quote, '\\', '\n', '\r'].contains glyph.char)).length
  let text ← take length
  let stop ← get
  return ⟨"string_fragment", none, true, text, start.point, stop.point, []⟩

/-- A text between two given quotes. -/
def stringBetween (quote : Char) : Parser Node :=
  nodeOver "string" do
    signHere (String.ofList [quote])
    let parts ← repeated (stringFragment quote <|> escapeSequence)
    signHere (String.ofList [quote])
    return parts

/-- A text. -/
def stringLiteral : Parser Node :=
  stringBetween '\x22' <|> stringBetween '\x27'

/-- The number of characters of a class that follow. -/
def countOf (holds : Char → Bool) (rest : List Glyph) : Nat :=
  (rest.takeWhile fun glyph => holds glyph.char).length

/-- A digit, or the sign between groups of digits. -/
def isDigitOrGap (c : Char) : Bool :=
  c.isDigit || c == '_'

/-- The length of an exponent. -/
def exponentLength (rest : List Glyph) : Nat :=
  match rest with
  | e :: more =>
    let mark := if spells ['+'] more || spells ['-'] more then 1 else 0
    let digits := countOf isDigitOrGap (more.drop mark)
    if (e.char == 'e' || e.char == 'E') && 0 < digits then 1 + mark + digits else 0
  | [] => 0

/-- The length of a number. -/
def numberLength (rest : List Glyph) : Nat :=
  let isBased := ["0x", "0X", "0o", "0O", "0b", "0B"].any fun start => spells start.toList rest
  if isBased then countOf (fun c => c.isAlphanum || c == '_') rest
  else
    let whole := countOf isDigitOrGap rest
    let afterWhole := rest.drop whole
    let fraction :=
      if spells ['.'] afterWhole then countOf isDigitOrGap (afterWhole.drop 1) + 1 else 0
    if whole = 0 && fraction ≤ 1 then 0
    else
      let length := whole + fraction
      let length := length + exponentLength (rest.drop length)
      if spells ['n'] (rest.drop length) then length + 1 else length

/-- A number. -/
def number : Parser Node :=
  nodeOver "number" do
    let rest := (← get).rest
    guard (rest.head?.any fun glyph => glyph.char.isDigit || glyph.char == '.')
    let _ ← take (numberLength rest)
    return []

/-- The length of the body of a regular expression up to its final slash, or nothing if a line ends
first. Inside a class in brackets a slash is an ordinary character. -/
def regexLength (inClass escaped : Bool) : List Glyph → Option Nat
  | [] => none
  | glyph :: rest =>
    if endsLine glyph then none
    else if escaped then (regexLength inClass false rest).map (· + 1)
    else if glyph.char == '\\' then (regexLength inClass true rest).map (· + 1)
    else if glyph.char == '[' then (regexLength true false rest).map (· + 1)
    else if glyph.char == ']' then (regexLength false false rest).map (· + 1)
    else if glyph.char == '/' && !inClass then some 0
    else (regexLength inClass false rest).map (· + 1)

/-- A regular expression. -/
def regex : Parser Node :=
  nodeOver "regex" do
    signHere "/"
    let length ← regexLength false false (← get).rest
    let _ ← take length
    signHere "/"
    modify fun cursor => cursor.skip (countOf Char.isAlpha cursor.rest)
    return []

/-- A comment, as a node. -/
def comment : Parser Node := do
  let start ← get
  let length ←
    if spells ['/', '/'] start.rest then
      pure (start.rest.takeWhile fun glyph => !endsLine glyph).length
    else do
      guard (spells ['/', '*'] start.rest)
      pure (blockLength (start.rest.drop 2) + 2)
  let text ← take length
  let stop ← get
  return ⟨"comment", none, true, text, start.point, stop.point, []⟩
where
  /-- The number of characters up to the end of a block comment. -/
  blockLength : List Glyph → Nat
    | a :: b :: rest =>
      if a.char == '*' && b.char == '/' then 2 else blockLength (b :: rest) + 1
    | rest => rest.length

/-- A line that starts with a mark and counts as a comment or a directive. -/
def markedLine (kind mark : String) : Parser Node := do
  let start ← get
  guard (spells mark.toList start.rest)
  let text ← take (start.rest.takeWhile fun glyph => !endsLine glyph).length
  let stop ← get
  return ⟨kind, none, true, text, start.point, stop.point, []⟩

/-- Comments that start on the line of the last token. -/
def trailingComments : Parser (List Node) :=
  repeated do
    modify fun cursor =>
      cursor.skip (cursor.rest.takeWhile fun glyph => isBlank glyph && !isNewline glyph).length
    comment

/-- The end of a statement: a semicolon, or the end of a line, of a block or of the text. Comments on
the same line belong to the statement. Where nothing ends the statement, the text is damaged. -/
def terminator : Parser Unit :=
  sign ";"
    <|> (do
      let isEnded := (← newlineAhead) || (← follows (sign "\x7d")) || (← follows endOfText)
      if isEnded then
        let _ ← trailingComments
      else
        modify fun cursor => { cursor with damaged := true })

end ExportCover.Source
