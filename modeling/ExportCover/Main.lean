import ExportCover.Command.Basic

/-!
# The program

Looks at the part of the disk that a command line is about, carries the command line out on it,
writes back what changed and prints the output. Everything that is decided is decided by
`Command.run`; this module only reads and writes.
-/

namespace ExportCover.Survey

/-- What has been seen of the disk: a file tree, and the directories that were listed. -/
structure Seen where
  tree : FileTree
  listed : List String

/-- Looking at the disk. -/
abbrev Look := StateT Seen IO

/-- Adds an entry and the directories that it stands in. -/
def note (path : Path) (entry : Entry) : Look Unit :=
  modify fun seen =>
    let above := ((List.range path.length).drop 1).map path.take
    ⟨(above.foldl (fun tree directory => tree.put directory .directory) seen.tree).put path entry,
      seen.listed⟩

/-- Where a link leads. -/
inductive LinkEnd where
  /-- The path without links of what is there. -/
  | at (path : String)
  | nowhere
  /-- Only to itself, or to a link that does. -/
  | loop

/-- Where a name in a directory leads. -/
def linkEnd (here : IO.FS.DirEntry) : IO LinkEnd := do
  try
    return .at (← IO.FS.realPath here.path).toString
  catch _ =>
    try
      discard here.path.metadata
      return .nowhere
    catch
      | .invalidArgument .. => return .loop
      | _ => return .nowhere

/-- The target of the link with a name. A loop is one by itself, and a link that leads nowhere gets
a target that is not there. -/
def LinkEnd.target (name : String) : LinkEnd → String
  | .at path => path
  | .nowhere => "target of " ++ name
  | .loop => name

/-- The name stands for a link. -/
def isLink (here : IO.FS.DirEntry) : IO Bool := do
  try
    match (← here.path.symlinkMetadata).type with
    | .symlink => return true
    | _ => return false
  catch _ =>
    return false

/-- The content of a file. Only sources and configurations are ever read. -/
def content (text : String) : IO Bytes := do
  if (Grammar.ofPath? text).isSome || Text.endsWith text ".json" then
    return (← IO.FS.readBinFile text).toList
  else
    return []

/-- Looks at a path without links and at everything below it. Excluded directories are noted but not
listed. -/
partial def scan (exclusions : List String) (path : Path) : Look Unit := do
  let text := Path.render path
  let here : IO.FS.DirEntry := ⟨text, "."⟩
  if (← get).listed.contains text then
    return
  if !(← here.path.isDir) then
    note path (.file (← content text))
  else
    unless path.isEmpty do
      note path .directory
    modify fun seen => ⟨seen.tree, text :: seen.listed⟩
    for child in ← here.path.readDir do
      let place := path ++ [child.fileName]
      let isExcluded := exclusions.contains child.fileName
      match (← child.path.symlinkMetadata).type with
      | .symlink =>
        let ending ← linkEnd child
        note place (.link (ending.target child.fileName))
        unless isExcluded do
          if let .at real := ending then scan exclusions (Path.names real)
      | .dir => if isExcluded then note place .directory else scan exclusions place
      | _ => scan exclusions place

/-- Goes from a directory without links along names, notes the links on the way, and gives the path
without links at the end. -/
def follow (real : String) : List String → Look (Option String)
  | [] => return some real
  | name :: rest => do
    let place := Path.names real ++ [name]
    let here : IO.FS.DirEntry := ⟨real, name⟩
    match ← linkEnd here with
    | .at target =>
      if name != ".." && target != Path.render place then
        note place (.link target)
      follow target rest
    | ending =>
      if ← isLink here then
        note place (.link (ending.target name))
      return none

/-- Looks at what a path text names from a working directory. -/
def visit (exclusions : List String) (cwd text : String) : Look Unit := do
  let start := if Path.isAbsolute text then "/" else cwd
  if let some real ← follow start (Path.names text) then
    scan exclusions (Path.names real)

/-- The part of the disk that an invocation is about. -/
def disk (cwd : String) (invocation : Invocation) : IO Disk := do
  let root := Disk.absolute cwd (invocation.root.getD "")
  let storedAt := root ++ "/" ++ Path.renderNames Config.fileNames
  let start : Seen := ⟨FileTree.empty, []⟩
  let ((), seen) ← (do note (Path.names cwd) .directory; visit [] cwd storedAt : Look Unit).run start
  let config := Config.load seen.tree (Path.names storedAt)
  let exclusions := config.exclusions.toOption.getD []
  let starts := match invocation.task with
    | .check paths _ => root :: paths
    | _ => []
  let ((), seen) ← (starts.forM (visit exclusions cwd)).run seen
  return ⟨seen.tree, Path.names cwd⟩

/-- Writes the entries of a tree that differ from those before. A file takes its place as a whole. -/
def writeBack (before after : FileTree) : IO Unit := do
  for (path, entry) in after.entries do
    unless before.entry? path == some entry do
      let text := Path.render path
      match entry with
      | .directory => IO.FS.createDirAll text
      | .file bytes =>
        IO.FS.writeBinFile (text ++ ".tmp") (ByteArray.mk bytes.toArray)
        IO.FS.rename (text ++ ".tmp") text
      | .link _ => pure ()

end ExportCover.Survey

open ExportCover in
/-- The program. The root of the project and the use of colour can be set from outside. -/
def main (arguments : List String) : IO UInt32 := do
  let root ← IO.getEnv "REQUIRETEST_ROOT"
  let arguments := (root.map ("--root=" ++ ·)).toList ++ arguments
  let cwd := Path.names (← IO.currentDir).toString
  let disk ← match Command.readInvocation arguments with
    | .ok invocation => Survey.disk (Path.render cwd) invocation
    | .error _ => pure ⟨FileTree.empty, cwd⟩
  let terminal := ⟨← (← IO.getStdout).isTty, (← IO.getEnv "NO_COLOR").isSome⟩
  let outcome := Command.run ⟨disk, terminal, true⟩ arguments
  Survey.writeBack disk.tree outcome.tree
  match outcome.output with
  | .ok output =>
    IO.eprint output.err
    IO.print output.out
    return output.exit.toUInt32
  | .error fault =>
    IO.eprintln fault.message
    return 1
