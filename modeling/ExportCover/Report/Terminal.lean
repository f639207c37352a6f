import ExportCover.Fault
import ExportCover.Json.Basic

/-!
# Terminal output

Colours and tables. Colours appear only on a terminal that wants them.
-/

namespace ExportCover

/-- What the output goes to. -/
structure Terminal where
  isTerminal : Bool
  noColor : Bool
deriving DecidableEq, Repr

namespace Terminal

/-- The code that ends every colour. -/
def reset : String := "\x1b[0m"

/-- The code that starts a colour; an unknown one has none. -/
def code (color : String) : String :=
  ([("reset", reset), ("bold", "\x1b[1m"), ("dim", "\x1b[2m"), ("red", "\x1b[31m"),
    ("green", "\x1b[32m"), ("yellow", "\x1b[33m"), ("cyan", "\x1b[36m")].lookup color).getD ""

/-- A text in a colour. -/
def colorize (terminal : Terminal) (text color : String) : String :=
  if terminal.noColor || !terminal.isTerminal then text else code color ++ text ++ reset

/-- The width of a column: that of its heading or of its widest cell. -/
def columnWidth (rows : List (List Json)) (index : Nat) (heading : Json) : Except Fault Int := do
  let cells ← rows.mapM fun row => match row[index]? with
    | some cell => Except.ok (cell.display.toList.length : Int)
    | none => .error .shortRow
  return cells.foldl max heading.display.toList.length

/-- The widths of all columns. -/
def columnWidths (headings : List Json) (rows : List (List Json)) : Except Fault (List Int) :=
  headings.zipIdx.mapM fun (heading, index) => columnWidth rows index heading

/-- The text of a heading. -/
def headingText : Json → Except Fault String
  | .string s => .ok s
  | _ => .error .headingNotText

/-- Cells side by side, each padded to its column. -/
def joinCells (cells : List String) (widths : List Int) : String :=
  "  ".intercalate (List.zipWith Text.padRight cells widths)

/-- A table with a line under its headings. Without rows nothing is printed; without widths the
columns are as wide as their contents. -/
def table (terminal : Terminal) (headings : List Json) (rows : List (List Json))
    (widths : List Int) : Except Fault String := do
  if rows.isEmpty then return ""
  let widths ← if widths.isEmpty then columnWidths headings rows else .ok widths
  let headings ← (headings.take widths.length).mapM headingText
  let ruleWidth : Int := widths.foldl (· + ·) 0 + 2 * ((widths.length : Int) - 1)
  let rule := String.ofList (List.replicate ruleWidth.toNat '─')
  let lines := terminal.colorize (joinCells headings widths) "bold"
    :: terminal.colorize rule "dim"
    :: rows.map fun row => joinCells (row.map Json.display) widths
  return String.join (lines.map (· ++ "\n"))

end Terminal

end ExportCover
