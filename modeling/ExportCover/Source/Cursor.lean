import ExportCover.Source.Grammar
import ExportCover.Text.Utf8
import ExportCover.Tree.Node

/-!
# Reading source text

A cursor stands in a source text and knows its place there. A parser moves the cursor and gives a
value, or fails and leaves the choice to another parser. Blanks and comments may stand before every
token; a parser of a token skips them first, so that a cursor rests at the end of a token.
-/

namespace ExportCover.Source

/-- A place in a source text and what follows it. -/
structure Cursor where
  rest : List Glyph
  /-- The length of `rest`. -/
  left : Nat
  point : Point
  /-- A statement without an end was met on the way. -/
  damaged : Bool
deriving Repr

/-- The place after a character; only a line feed ends a line. -/
def pointAfter (point : Point) (glyph : Glyph) : Point :=
  if glyph.char == '\n' then ⟨point.row + 1, 0⟩ else ⟨point.row, point.column + glyph.width⟩

namespace Cursor

/-- The start of a text. -/
def start (glyphs : List Glyph) : Cursor := ⟨glyphs, glyphs.length, ⟨0, 0⟩, false⟩

/-- Moves over a number of characters. -/
def skip : Nat → Cursor → Cursor
  | 0, cursor => cursor
  | n + 1, cursor =>
    match cursor.rest with
    | [] => cursor
    | glyph :: rest =>
      skip n { cursor with
        rest := rest, left := cursor.left - 1, point := pointAfter cursor.point glyph }

/-- The text from a cursor up to a later one. -/
def textTo (start stop : Cursor) : String :=
  String.ofList ((start.rest.take (start.left - stop.left)).map (·.char))

end Cursor

/-- Reads from a cursor under a grammar; failing leaves the cursor where it was. -/
abbrev Parser := ReaderT Grammar (StateT Cursor Option)

/-- The character ends a line for the rules about statements. -/
def isNewline (glyph : Glyph) : Bool :=
  !glyph.faulty && ['\n', '\u2028', '\u2029'].contains glyph.char

/-- The character ends a line comment. -/
def endsLine (glyph : Glyph) : Bool :=
  isNewline glyph || glyph.char == '\r'

/-- The character is a blank between tokens. -/
def isBlank (glyph : Glyph) : Bool :=
  let n := glyph.char.toNat
  !glyph.faulty && ((9 ≤ n && n ≤ 13) || (0x2000 ≤ n && n ≤ 0x200B)
    || [0x20, 0x85, 0xA0, 0x1680, 0x2028, 0x2029, 0x202F, 0x205F, 0x2060, 0x3000, 0xFEFF].contains n)

/-- What blanks and comments are being skipped. -/
inductive Trivia where
  | blanks
  | lineComment
  | blockComment
deriving DecidableEq, Repr

/-- The number of characters up to the end of the blanks and comments. -/
def triviaLength : Trivia → List Glyph → Nat
  | _, [] => 0
  | .blanks, [glyph] => if isBlank glyph then 1 else 0
  | .blanks, a :: b :: rest =>
    if isBlank a then triviaLength .blanks (b :: rest) + 1
    else if a.char == '/' && b.char == '/' then triviaLength .lineComment rest + 2
    else if a.char == '/' && b.char == '*' then triviaLength .blockComment rest + 2
    else 0
  | .lineComment, a :: rest =>
    if endsLine a then triviaLength .blanks rest + 1 else triviaLength .lineComment rest + 1
  | .blockComment, [_] => 1
  | .blockComment, a :: b :: rest =>
    if a.char == '*' && b.char == '/' then triviaLength .blanks rest + 2
    else triviaLength .blockComment (b :: rest) + 1

/-- Moves to the next token. -/
def skipTrivia : Parser Unit :=
  modify fun cursor => cursor.skip (triviaLength .blanks cursor.rest)

/-- Moves over blanks, not over comments. -/
def skipBlanks : Parser Unit :=
  modify fun cursor => cursor.skip (cursor.rest.takeWhile isBlank).length

/-- Some line ends before the next token. -/
def newlineAhead : Parser Bool := do
  let cursor ← get
  return (cursor.rest.take (triviaLength .blanks cursor.rest)).any isNewline

/-- Fails unless the next token stands on the same line. -/
def sameLine : Parser Unit := do
  guard !(← newlineAhead)

/-- The characters stand at the start of a text. -/
def spells : List Char → List Glyph → Bool
  | [], _ => true
  | c :: cs, glyph :: rest => glyph.char == c && !glyph.faulty && spells cs rest
  | _ :: _, [] => false

/-- The next character, if it can be the start of anything. -/
def headChar? (cursor : Cursor) : Option Char :=
  match cursor.rest with
  | glyph :: _ => if glyph.faulty then none else some glyph.char
  | [] => none

/-- Succeeds if a parser would, without moving. -/
def lookahead {α : Type} (p : Parser α) : Parser α := do
  let cursor ← get
  let value ← p
  set cursor
  return value

/-- The parser would succeed here. -/
def follows {α : Type} (p : Parser α) : Parser Bool :=
  (do let _ ← lookahead p; return true) <|> return false

/-- Succeeds where a parser fails. -/
def notFollowedBy {α : Type} (p : Parser α) : Parser Unit := do
  guard !(← follows p)

/-- Succeeds also where a parser fails, with nothing. -/
def optionally {α : Type} (p : Parser α) : Parser (Option α) :=
  some <$> p <|> return none

/-- The values of a parser that is repeated until it fails or stands still, at most `n` times. -/
def repeatWithin {α : Type} (p : Parser α) : Nat → Parser (List α)
  | 0 => return []
  | n + 1 => do
    let before ← get
    match ← optionally p with
    | none => return []
    | some value =>
      let after ← get
      if after.left < before.left then return value :: (← repeatWithin p n)
      else return [value]

/-- The values of a parser that is repeated until it fails or stands still. -/
def repeated {α : Type} (p : Parser α) : Parser (List α) := do
  repeatWithin p ((← get).left + 1)

/-- Values with a separator between them; one more separator may follow the last. -/
def separated {α β : Type} (p : Parser α) (separator : Parser β) : Parser (List α) := do
  match ← optionally p with
  | none => return []
  | some first =>
    let others ← repeated (separator *> p)
    let _ ← optionally separator
    return first :: others

/-- A node over what a parser reads, from its first token on. -/
def nodeOver (kind : String) (body : Parser (List Node)) : Parser Node := do
  skipTrivia
  let start ← get
  let children ← body
  let stop ← get
  return ⟨kind, none, true, start.textTo stop, start.point, stop.point, children⟩

/-- A node under a field of its parent. -/
def inField (field : String) (p : Parser Node) : Parser Node := do
  return { (← p) with field := some field }

end ExportCover.Source
