import ExportCover.Text.Basic
import ExportCover.Text.Printable

/-!
# Quoted texts

How a message shows a text: between apostrophes, or between double quotes if the text has an
apostrophe and no double quote. What is not printable is written as an escape.
-/

namespace ExportCover.Text

/-- The quote that stands around a text. -/
def quoteFor (s : List Char) : Char :=
  if s.contains '\x27' && !s.contains '\x22' then '\x22' else '\x27'

/-- How a character is written between two `quote`s. -/
def escaped (quote c : Char) : String :=
  if c == quote || c == '\\' then String.ofList ['\\', c]
  else if c == '\n' then "\\n"
  else if c == '\r' then "\\r"
  else if c == '\t' then "\\t"
  else if isPrintable c then String.ofList [c]
  else if c.toNat < 0x100 then "\\x" ++ hex 2 c.toNat
  else if c.toNat < 0x10000 then "\\u" ++ hex 4 c.toNat
  else "\\U" ++ hex 8 c.toNat

/-- The text between quotes, on one line. -/
def quoted (s : String) : String :=
  let quote := quoteFor s.toList
  let mark := String.ofList [quote]
  mark ++ String.join (s.toList.map (escaped quote)) ++ mark

end ExportCover.Text
