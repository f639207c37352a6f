import ExportCover.Config.Listing
import ExportCover.FileTree.Resolve
import ExportCover.Notice

/-!
# Finding files

Test files are found by a walk from a root directory, level by level and by name within a
directory. Links are followed, excluded directories are not entered, and a directory is entered at
most once, whatever ways lead to it. Source files are found below a directory without following
links to directories.
-/

namespace ExportCover.Discovery

/-- The endings of test file names. -/
def defaultSuffixes : List String :=
  [".test.ts", ".test.tsx", ".test.mts", ".test.cts", ".test.js", ".test.jsx", ".test.mjs",
    ".test.cjs"]

/-- The directories that hold installed packages or the history of the project. -/
def defaultExclusions : List String :=
  ["node_modules", ".git", ".hg", ".svn"]

/-- The part of the program that notices of a walk come from. -/
def origin : String := "requiretest.engine.discovery"

/-- The name has one of the endings. -/
def hasSuffix (name : String) (suffixes : Listing) : Except Fault Bool :=
  suffixes.any (Text.endsWith name)

/-- The path text names a test file. -/
def isTestFile (path : String) (suffixes : Listing) : Except Fault Bool :=
  hasSuffix (Path.baseName path) suffixes

/-- A step of a walk. -/
inductive Event where
  /-- A test file, at its canonical path. -/
  | found (file : Path)
  | notice (notice : Notice)
  /-- The walk cannot go on. -/
  | fault (fault : Fault)
deriving DecidableEq, Repr

/-- What an entry of a directory means for a walk. -/
inductive Finding where
  | descend (directory : Path)
  | event (event : Event)
  | nothing
deriving DecidableEq, Repr

/-- What a walk looks for. -/
structure Query where
  suffixes : Listing
  exclusions : List String
deriving DecidableEq, Repr

/-- An entry could not be looked at. -/
def inspectFailure (path : Path) (error : SystemError) : Notice :=
  let text := Path.render path
  Notice.skipped origin ("inspect " ++ text) (Fault.system error text).message

/-- Looks at the entry with a name in a directory. -/
def inspect (tree : FileTree) (query : Query) (directory : Path) (name : String) : Finding :=
  let path := directory ++ [name]
  match tree.status path with
  | .ok .directory => if query.exclusions.contains name then .nothing else .descend path
  | .error .noEntry =>
    match hasSuffix name query.suffixes with
    | .error fault => .event (.fault fault)
    | .ok _ => .nothing
  | .error error => .event (.notice (inspectFailure path error))
  | .ok _ =>
    match hasSuffix name query.suffixes with
    | .error fault => .event (.fault fault)
    | .ok true => .event (.found (tree.canonical path))
    | .ok false => .nothing

/-- The events among findings, up to a fault. -/
def eventsOf : List Finding → List Event
  | [] => []
  | .event (.fault fault) :: _ => [.fault fault]
  | .event event :: rest => event :: eventsOf rest
  | _ :: rest => eventsOf rest

/-- The directories among findings. -/
def directoriesOf (findings : List Finding) : List Path :=
  findings.filterMap fun
    | .descend directory => some directory
    | _ => none

/-- The events end a walk. -/
def endsWalk (events : List Event) : Bool :=
  events.any fun
    | .fault _ => true
    | _ => false

/-- The directories of a tree that a walk has not entered yet. -/
def unvisited (tree : FileTree) (visited : List Path) : List Path :=
  tree.directories.filter fun directory => !visited.contains directory

/-- Entering a directory leaves fewer to enter. -/
theorem unvisited_cons_lt {tree : FileTree} {visited : List Path} {place : Path}
    (isDirectory : tree.isDirectoryAt place = true) (isNew : visited.contains place = false) :
    (unvisited tree (place :: visited)).length < (unvisited tree visited).length := by
  have listed : place ∈ tree.directories :=
    FileTree.mem_directories_of_entry? (by simpa [FileTree.isDirectoryAt] using isDirectory)
  have split : unvisited tree (place :: visited)
      = (unvisited tree visited).filter fun directory => !(directory == place) := by
    simp only [unvisited, List.filter_filter, List.contains_cons]
    congr 1
    funext directory
    cases directory == place <;> simp
  rw [split]
  refine List.length_filter_lt_length_iff_exists.mpr ⟨place, ?_, by simp⟩
  simpa [unvisited, listed] using isNew

/-- Walks the directories of a queue, those in `visited` left out. -/
def walk (tree : FileTree) (query : Query) (visited : List Path) : List Path → List Event
  | [] => []
  | directory :: queue =>
    let text := Path.render directory
    match tree.locate directory with
    | .error error =>
      .notice (Notice.skipped origin ("stat directory " ++ text) (Fault.system error text).message)
        :: walk tree query visited queue
    | .ok place =>
      if _isOld : visited.contains place = true then
        .notice (Notice.debug origin
            ("Already visited " ++ text ++ " (symlink cycle or alias); skipping"))
          :: walk tree query visited queue
      else if _isDirectory : tree.isDirectoryAt place = true then
        let findings := (tree.namesIn place).map (inspect tree query directory)
        let events := eventsOf findings
        if endsWalk events then events
        else events ++ walk tree query (place :: visited) (queue ++ directoriesOf findings)
      else
        .notice (Notice.skipped origin ("list directory " ++ text)
            (Fault.system .notDirectory text).message)
          :: walk tree query visited queue
termination_by queue => ((unvisited tree visited).length, queue.length)
decreasing_by
  · exact Prod.Lex.right _ (by simp)
  · exact Prod.Lex.right _ (by simp)
  · exact Prod.Lex.left _ _ (unvisited_cons_lt _isDirectory (by simpa using _isOld))
  · exact Prod.Lex.right _ (by simp)

/-- The test files that a walk met, in its order. -/
def filesOf (events : List Event) : List Path :=
  events.filterMap fun
    | .found file => some file
    | _ => none

/-- The notices of a walk, in its order. -/
def noticesOf (events : List Event) : List Notice :=
  events.filterMap fun
    | .notice notice => some notice
    | _ => none

/-- The fault that ended a walk. -/
def faultOf (events : List Event) : Option Fault :=
  events.findSome? fun
    | .fault fault => some fault
    | _ => none

/-- The test files under a root, or the fault that ended the walk, with the notices on the way. The
root is always scanned, even if its own name is excluded. -/
def testFiles (disk : Disk) (root : String) (query : Query) :
    Except Fault (List Path) × List Notice :=
  let events := walk disk.tree query [] [Path.ofText disk.cwd root]
  match faultOf events with
  | some fault => (.error fault, noticesOf events)
  | none =>
    let files := filesOf events
    (.ok files, noticesOf events ++ [Notice.debug origin
      ("Found " ++ toString files.length ++ " test file(s) under " ++ root)])

/-- The entry at `path` is a source file below `root`: no directory in between is excluded, and it
neither is a directory nor leads to one. -/
def isSourceEntry (tree : FileTree) (root : Path) (exclusions : List String) (path : Path) : Bool :=
  root.isPrefixOf path && root.length < path.length
    && !((path.drop root.length).dropLast.any exclusions.contains)
    && !tree.isDirectory path

/-- The source files under a path, sorted by their path texts; a path that is a file is its own
source file. -/
def sourceFiles (disk : Disk) (path : String) (extensions : Except Fault Listing)
    (exclusions : List String) : Except Fault (List String) := do
  let root ← disk.resolve path
  let candidates :=
    if disk.tree.isFile root then [root]
    else if disk.tree.isDirectory root then
      (disk.tree.entries.map (·.1)).filter (isSourceEntry disk.tree root exclusions)
    else []
  let chosen ← candidates.filterM fun file => do
    hasSuffix (file.getLast?.getD "") (← extensions)
  return (chosen.map Path.render).mergeSort fun a b => a ≤ b

end ExportCover.Discovery
