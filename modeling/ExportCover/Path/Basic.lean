import ExportCover.Text.Basic

/-!
# Paths

A path from the root of the file tree is the list of the names on it. A path text is taken apart
into names, put on a starting directory and normalised without looking at the file tree: `.` and
empty names vanish and `..` removes the name before it.
-/

namespace ExportCover

/-- A path from the root: the names on it, from the outermost on. -/
abbrev Path := List String

namespace Path

/-- The text starts at the root. -/
def isAbsolute (text : String) : Bool :=
  Text.startsWith text "/"

/-- The names in a path text; `..` is still one of them. -/
def names (text : String) : List String :=
  ((text.toList.splitOn '/').map String.ofList).filter fun name => name != "" && name != "."

/-- Goes one name further, or back for `..`; there is nothing above the root. -/
def step (path : Path) (name : String) : Path :=
  if name == ".." then path.dropLast else path ++ [name]

/-- Follows names from a path without looking at the file tree. -/
def follow (path : Path) (names : List String) : Path :=
  names.foldl step path

/-- The path that a text names from a working directory, without looking at the file tree. -/
def ofText (cwd : Path) (text : String) : Path :=
  follow (if isAbsolute text then [] else cwd) (names text)

/-- A path as a text. -/
def render (path : Path) : String :=
  "/" ++ "/".intercalate path

/-- The number of leading names that two paths share. -/
def sharedLength : Path → Path → Nat
  | a :: as, b :: bs => if a == b then sharedLength as bs + 1 else 0
  | _, _ => 0

/-- The names that lead from `start` to `target`: up to the directory that they share, then down. -/
def relative (target start : Path) : List String :=
  let shared := sharedLength start target
  List.replicate (start.length - shared) ".." ++ target.drop shared

/-- The names behind a directory on a path that leads through it. -/
def below? (path directory : Path) : Option (List String) :=
  if directory.isPrefixOf path then some (path.drop directory.length) else none

/-- Names as a relative path text; no names at all are the directory itself. -/
def renderNames (names : List String) : String :=
  if names.isEmpty then "." else "/".intercalate names

/-- A path text without empty names and `.`, as messages show it. -/
def tidy (text : String) : String :=
  if isAbsolute text then render (names text) else renderNames (names text)

/-- The last name of a path text: what follows its last separator. -/
def baseName (text : String) : String :=
  (Text.splitLast '/' text).2

/-- The directory part of a path text: what stands up to its last separator. -/
def directoryPart (text : String) : String :=
  (Text.splitLast '/' text).1

end Path

end ExportCover
