import ExportCover.Source.Linkage

/-!
# Programs

The tree of a whole source text: its statements in order, with the comments between them. A text
that is no program gives the statements up to the first that cannot be read.
-/

namespace ExportCover

namespace Source

/-- Every rule on top of a table for the rules inside it. -/
def step (rules : Rules) : Rules
  | .statement => statement rules
  | .expression mode => expression rules mode
  | .operand mode => operand rules mode
  | .pattern => pattern rules
  | .type isConditional => type rules isConditional
  | .element => element rules
  | .group => group rules

/-- The rules, nested at most to the given depth. -/
def rulesWithin : Nat → Rules
  | 0, _ => failure
  | depth + 1, rule => step (rulesWithin depth) rule

/-- The rules for a text. No token contains more than a few rules inside each other, so the length
of the text bounds the depth. -/
def rulesFor (length : Nat) : Rules :=
  rulesWithin (8 * (length + 1))

/-- A comment or a statement at the top of a program. -/
def topLevelItem (rules : Rules) : Parser Node := do
  skipBlanks
  comment <|> markedLine "html_comment" "<!--" <|> markedLine "html_comment" "-->"
    <|> rules .statement

/-- The children of a program. -/
def topLevel (rules : Rules) : Parser (List Node) := do
  skipBlanks
  let first ← optionally (markedLine "hash_bang_line" "#!")
  return first.toList ++ (← repeated (topLevelItem rules))

end Source

/-- A source text as a tree. -/
structure Program where
  root : Node
  /-- Some part of the text is no statement. -/
  isDamaged : Bool
deriving Repr

namespace Program

/-- The tree of a source text. -/
def parse (grammar : Grammar) (source : Bytes) : Program :=
  let start := Source.Cursor.start (Text.glyphs source)
  let (children, stop) :=
    (((Source.topLevel (Source.rulesFor start.left)).run grammar).run start).getD ([], start)
  let isRead := (((Source.endOfText).run grammar).run stop).isSome
  ⟨⟨"program", none, true, start.textTo stop, start.point, stop.point, children⟩,
    stop.damaged || !isRead⟩

end Program

end ExportCover
