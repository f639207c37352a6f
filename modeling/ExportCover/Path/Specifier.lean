import ExportCover.Path.Basic
import ExportCover.Fault

/-!
# Module specifiers

How an import statement spells a module: relative to the directory of the importing file, with `/`
between names and without the extension. The index module of a directory is spelled as the directory
with a separator at its end. Two spellings name one module if they differ in the index name or in
one separator at the end.
-/

namespace ExportCover.Specifier

/-- The extensions of source files. -/
def defaultExtensions : List String :=
  [".ts", ".tsx", ".mts", ".cts", ".js", ".jsx", ".mjs", ".cjs"]

/-- The name of the module that stands for its directory. -/
def defaultIndexName : String := "index"

/-- The text with `/` for every backslash. -/
def foldSeparators (s : String) : String :=
  String.ofList (s.toList.map fun c => if c == '\\' then '/' else c)

/-- The specifier names a file of the project, not an installed package. -/
def isRelative (specifier : String) : Bool :=
  let s := foldSeparators specifier
  s == "." || s == ".." || Text.startsWith s "./" || Text.startsWith s "../"

/-- The specifier names an installed package. -/
def isDependency (specifier : String) : Bool :=
  !isRelative specifier

/-- The text without the last `n` characters; an ending of no characters takes all of them. -/
def dropEnding (s : String) (n : Nat) : String :=
  if n = 0 then "" else Text.dropEnd s n

/-- The extensions in the order in which they are tried: longer ones first. -/
def byLength (extensions : List String) : List String :=
  extensions.mergeSort fun a b => b.toList.length ≤ a.toList.length

/-- The extension of a file name is a proper ending of it. -/
def isExtensionOf (name extension : String) : Bool :=
  Text.endsWith name extension && extension.toList.length < name.toList.length

/-- A file name without the first of the extensions, in the order given, that it has. -/
def stripFirst (name : String) (extensions : List String) : String :=
  match extensions.find? (isExtensionOf name) with
  | some extension => dropEnding name extension.toList.length
  | none => name

/-- A file name without the longest of the extensions that it has. -/
def stem (name : String) (extensions : List String) : String :=
  stripFirst name (byLength extensions)

/-- The directory part of a path as a specifier shows it; the root leaves nothing. -/
def directory (path : String) : String :=
  let part := Path.directoryPart path
  if part == "/" then "" else part

/-- The specifier of a module from its directory part and its stem. -/
def ofParts (directory stem : String) (isIndex : Bool) : String :=
  let spelled := if isIndex then directory else directory ++ stem
  if isRelative spelled then spelled else "./" ++ spelled

/-- The specifier of the file at a relative path. -/
def ofFile (path : String) (extensions : List String) (indexName : String) : String :=
  let folded := foldSeparators path
  let name := stem (Path.baseName folded) extensions
  ofParts (directory folded) name (name == indexName)

/-- The specifier without the index name at its end; the separator before it stays. -/
def stripIndex (indexName specifier : String) : String :=
  if Text.endsWith specifier ("/" ++ indexName) then dropEnding specifier indexName.toList.length
  else specifier

/-- The texts are the same up to one separator at the end of one of them. -/
def sameUpToSlash (a b : String) : Bool :=
  a == b || a == b ++ "/" || a ++ "/" == b

/-- Two specifiers spell one module. -/
def sameModule (indexName a b : String) : Bool :=
  sameUpToSlash (stripIndex indexName (foldSeparators a)) (stripIndex indexName (foldSeparators b))

/-- The path of a module file from the directory of a test file. -/
def relativePath (cwd : Path) (testFile moduleFile : String) : Except Fault String :=
  if moduleFile == "" then .error .emptyPath
  else
    let start := Path.ofText cwd (Path.directoryPart testFile)
    .ok (foldSeparators (Path.renderNames (Path.relative (Path.ofText cwd moduleFile) start)))

end ExportCover.Specifier
