import ExportCover.Text.Basic

/-!
# Glob patterns

Patterns for whole paths: `*` stands for any text, separators included, `?` for any character and a
bracket for one character of a set. A pattern is cut at its stars into pieces that each stand for a
fixed number of characters; the first piece must start the path, the last must end it, and the ones
between are looked for from left to right.
-/

namespace ExportCover.Glob

/-- What one place of a pattern admits. -/
inductive Place where
  | literal (c : Char)
  | any
  | set (negated : Bool) (ranges : List (Char × Char))
deriving DecidableEq, Repr

/-- The place admits the character. -/
def Place.admits : Place → Char → Bool
  | .literal c, x => x == c
  | .any, _ => true
  | .set negated ranges, x => ranges.any (fun (low, high) => low ≤ x && x ≤ high) != negated

/-- A part of a pattern. -/
inductive Token where
  | star
  | place (p : Place)
deriving DecidableEq, Repr

/-- A set of characters as it is written between brackets: runs of characters, where a range goes
from the last character of a run to the first of the next. -/
abbrev Runs := List (List Char)

/-- Cuts the body of a bracket into runs at the hyphens that make ranges. A hyphen makes a range if
it is neither the first character nor directly follows the end of another range; `before` is the run
so far and `guarded` the number of characters that a hyphen may not follow yet. -/
def cutRuns (before : List Char) (guarded : Nat) : List Char → Runs
  | [] => [before]
  | c :: rest =>
    if c == '-' && guarded == 0 then before :: cutRuns [] 2 rest
    else cutRuns (before ++ [c]) (guarded - 1) rest

/-- A hyphen at the end of the body makes no range: it belongs to the run before it. -/
def closeRuns : Runs → Runs
  | [] => []
  | [run] => [run]
  | [run, []] => [run ++ ['-']]
  | run :: rest => run :: closeRuns rest

/-- Removes ranges that run backwards together with their two ends, from the last to the first. -/
def dropEmptyRanges : Runs → Runs
  | [] => []
  | run :: rest =>
    match dropEmptyRanges rest with
    | [] => [run]
    | next :: others =>
      match run.getLast?, next.head? with
      | some low, some high =>
        if high < low then (run.dropLast ++ next.drop 1) :: others else run :: next :: others
      | _, _ => run :: next :: others

/-- The ranges that runs stand for: each character by itself and one range from run to run. -/
def rangesOf : Runs → List (Char × Char)
  | [] => []
  | [run] => run.map fun c => (c, c)
  | run :: next :: rest =>
    let between := match run.getLast?, next.head? with
      | some low, some high => [(low, high)]
      | _, _ => []
    run.map (fun c => (c, c)) ++ between ++ rangesOf (next :: rest)

/-- The place that a bracket with the given body stands for. The body starts with `!` for the
characters outside the set; an empty set admits nothing and its complement everything. -/
def bracket (body : List Char) : Place :=
  let guarded := if body.head? == some '!' then 2 else 1
  match dropEmptyRanges (closeRuns (cutRuns [] guarded body)) with
  | ('!' :: run) :: rest => .set true (rangesOf (run :: rest))
  | runs => .set false (rangesOf runs)

/-- The body of a bracket and what follows its closing bracket. A closing bracket directly at the
start (after a `!`) belongs to the body. -/
def bracketBody (cs : List Char) : Option (List Char × List Char) :=
  let bang := if cs.head? == some '!' then 1 else 0
  let lead := if (cs.drop bang).head? == some ']' then bang + 1 else bang
  let inner := (cs.drop lead).takeWhile (· != ']')
  match (cs.drop lead).dropWhile (· != ']') with
  | _ :: rest => some (cs.take lead ++ inner, rest)
  | [] => none

/-- The parts of a pattern, read in at most `fuel` steps. An opening bracket without a closing one
stands for itself. -/
def tokensWithin : Nat → List Char → List Token
  | 0, _ => []
  | _, [] => []
  | fuel + 1, c :: rest =>
    if c == '*' then .star :: tokensWithin fuel rest
    else if c == '?' then .place .any :: tokensWithin fuel rest
    else if c == '[' then
      match bracketBody rest with
      | some (body, rest) => .place (bracket body) :: tokensWithin fuel rest
      | none => .place (.literal '[') :: tokensWithin fuel rest
    else .place (.literal c) :: tokensWithin fuel rest

/-- The parts of a pattern. -/
def tokens (pattern : List Char) : List Token :=
  tokensWithin pattern.length pattern

/-- A pattern cut at its stars: the piece before the first star and the pieces after each star. -/
def pieces : List Token → List Place × List (List Place)
  | [] => ([], [])
  | .star :: rest =>
    let (first, others) := pieces rest
    ([], first :: others)
  | .place p :: rest =>
    let (first, others) := pieces rest
    (p :: first, others)

/-- What is left of the text after a piece at its start. -/
def afterPiece : List Place → List Char → Option (List Char)
  | [], cs => some cs
  | p :: piece, c :: cs => if p.admits c then afterPiece piece cs else none
  | _ :: _, [] => none

/-- What is left of the text after the leftmost occurrence of a piece. -/
def afterFirst (piece : List Place) : List Char → Option (List Char)
  | [] => afterPiece piece []
  | c :: cs =>
    match afterPiece piece (c :: cs) with
    | some rest => some rest
    | none => afterFirst piece cs

/-- The text ends with the piece. -/
def endsWithPiece (piece : List Place) (cs : List Char) : Bool :=
  piece.length ≤ cs.length && afterPiece piece (cs.drop (cs.length - piece.length)) == some []

/-- The pieces after the stars of a pattern match the rest of a text. -/
def matchAfterStars : List (List Place) → List Char → Bool
  | [], cs => cs.isEmpty
  | [last], cs => endsWithPiece last cs
  | piece :: rest, cs =>
    match afterFirst piece cs with
    | some cs => matchAfterStars rest cs
    | none => false

/-- The pattern stands for the whole text. -/
def admits (pattern text : String) : Bool :=
  let (first, others) := pieces (tokens pattern.toList)
  match afterPiece first text.toList with
  | some rest => matchAfterStars others rest
  | none => false

end ExportCover.Glob
