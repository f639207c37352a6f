import ExportCover.Source.Token

/-!
# Rules

The rules of the grammars that contain each other. Each rule is written on top of a table `rules`
for the rules inside it; the table itself is tied together in one place, with a bound on the depth
of nesting.
-/

namespace ExportCover.Source

/-- How an expression is read. -/
structure ExpressionMode where
  /-- Several expressions with commas between them are one. -/
  sequence : Bool
  /-- The word `in` ends the expression, as in the head of a loop. -/
  noIn : Bool
  /-- An arrow function has no type of its result, as after the question mark of a choice. -/
  noResultType : Bool
deriving DecidableEq, Repr

namespace ExpressionMode

/-- One expression: a comma ends it. -/
def single : ExpressionMode := ⟨false, false, false⟩

/-- One expression or several with commas between them. -/
def full : ExpressionMode := ⟨true, false, false⟩

end ExpressionMode

/-- The rules that contain each other. -/
inductive Rule where
  | statement
  | expression (mode : ExpressionMode)
  /-- What stands between two operators. -/
  | operand (mode : ExpressionMode)
  | pattern
  /-- A type, with or without a choice by `extends` on its outside. -/
  | type (isConditional : Bool)
  /-- An element of markup. -/
  | element
  /-- Anything between two brackets. -/
  | group
deriving DecidableEq, Repr

/-- A parser for every rule. -/
abbrev Rules := Rule → Parser Node

namespace Rules

/-- One expression. -/
def single (rules : Rules) : Parser Node := rules (.expression .single)

/-- One expression or several with commas between them. -/
def full (rules : Rules) : Parser Node := rules (.expression .full)

/-- A type. -/
def anyType (rules : Rules) : Parser Node := rules (.type true)

end Rules

/-- Succeeds only under a grammar with types. -/
def typesOnly : Parser Unit := do
  guard (← read).hasTypes

/-- Values between two brackets, with commas between them. -/
def bracketed {α : Type} (opening : String) (p : Parser α) (closing : String) :
    Parser (List α) := do
  sign opening
  let values ← separated p (sign ",")
  sign closing
  return values

/-- What a parser reads and all that further pieces add to it; without pieces, what the parser
reads. -/
def chained (kind : String) (first : Parser Node) (piece : Parser (List Node)) : Parser Node := do
  skipTrivia
  let start ← get
  let head ← first
  let pieces ← repeated piece
  if pieces.isEmpty then return head
  let stop ← get
  return ⟨kind, none, true, start.textTo stop, start.point, stop.point, head :: pieces.flatten⟩

/-- A text with expressions in it. -/
def template (rules : Rules) : Parser Node :=
  nodeOver "template_string" do
    signHere "\x60"
    let parts ← repeated (plain <|> escape <|> substitution)
    signHere "\x60"
    return parts.flatten
where
  /-- Characters that stand for themselves. -/
  plain : Parser (List Node) := do
    let rest := (← get).rest
    let length := (rest.takeWhile fun glyph => !(['\x60', '\\', '$'].contains glyph.char)).length
    if 0 < length then
      let _ ← take length
    else
      guard !(spells ['$', '\x7b'] rest)
      signHere "$"
    return []
  /-- A character after a backslash. -/
  escape : Parser (List Node) := do
    signHere "\\"
    let _ ← take 1
    return []
  /-- An expression in the text. -/
  substitution : Parser (List Node) := do
    signHere "$\x7b"
    let inner ← rules.full
    sign "\x7d"
    return [inner]

/-- What a group is made of: texts, other groups and single characters. -/
def groupPiece (rules : Rules) : Parser Unit := do
  skipTrivia
  (do let _ ← stringLiteral)
    <|> (do let _ ← template rules)
    <|> (do let _ ← rules .group)
    <|> (do
      let c ← headChar? (← get)
      guard !(['(', ')', '[', ']', '\x7b', '\x7d', '\x22', '\x27', '\x60'].contains c)
      let _ ← take 1)

/-- Anything between two given brackets. -/
def groupOf (rules : Rules) (opening closing : String) : Parser Node :=
  nodeOver "group" do
    signHere opening
    let _ ← repeated (groupPiece rules)
    sign closing
    return []

/-- Anything between two brackets of one kind. -/
def group (rules : Rules) : Parser Node :=
  groupOf rules "(" ")" <|> groupOf rules "[" "]" <|> groupOf rules "\x7b" "\x7d"

end ExportCover.Source
