import ExportCover.Config.Schema
import ExportCover.FileTree.Edit
import ExportCover.Json.Printer
import ExportCover.Json.Reader

/-!
# The configuration file

A configuration is kept in a file below the root of a project. Reading it always gives a
configuration: a file that is missing or holds no object counts as empty, and keys that it lacks are
at their defaults. Writing replaces the file as a whole.
-/

namespace ExportCover.Config

/-- The names from a root directory to its configuration file. -/
def fileNames : List String := [".requiretest", "config.json"]

/-- What a file of configuration holds, if it can be read. -/
def stored? (tree : FileTree) (path : List String) : Option Json :=
  match tree.read path with
  | .ok content => (Text.decode? content).bind Json.parse?
  | .error _ => none

/-- The fields of a value; a value that is no object has none. -/
def fieldsOf : Option Json → Config
  | some (.object fields) => fields
  | _ => []

/-- The configuration in a file. -/
def load (tree : FileTree) (path : List String) : Config :=
  fill (fieldsOf (stored? tree path))

/-- The text of a configuration file. -/
def fileText (config : Config) : String :=
  Json.render (.object config) ++ "\n"

/-- Writes a configuration to a file. -/
def save (config : Config) (tree : FileTree) (path : List String) : Edited :=
  tree.replaceFile path (Text.encode config.fileText)

end ExportCover.Config
