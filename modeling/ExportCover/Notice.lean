/-!
# Notices

What a run has to say beside its answers. A notice is a value: the command decides where it goes.
-/

namespace ExportCover

/-- How much a notice matters. -/
inductive Level where
  | debug
  | warning
deriving DecidableEq, Repr

/-- The name of a level. -/
def Level.name : Level → String
  | .debug => "DEBUG"
  | .warning => "WARNING"

/-- A message from a part of the program. -/
structure Notice where
  level : Level
  origin : String
  text : String
deriving DecidableEq, Repr

namespace Notice

/-- A note for someone who follows the work. -/
def debug (origin text : String) : Notice := ⟨.debug, origin, text⟩

/-- An input was skipped and the user should know. -/
def skipped (origin action reason : String) : Notice :=
  ⟨.warning, origin, "Skipped while trying to " ++ action ++ ": " ++ reason⟩

/-- The notice is a warning. -/
def isWarning (notice : Notice) : Bool :=
  notice.level == .warning

/-- The notice as a line with its level and its origin. -/
def describe (notice : Notice) : String :=
  notice.level.name ++ " " ++ notice.origin ++ ": " ++ notice.text

end Notice

end ExportCover
