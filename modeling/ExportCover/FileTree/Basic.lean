import ExportCover.Fault
import ExportCover.Path.Basic
import ExportCover.Text.Utf8

/-!
# File trees

A file tree is a finite table from paths to entries: files with their content, directories and
symbolic links with the text of their target. The root directory is always there. `WellFormed` says
what every edit keeps: no path is listed twice and every entry stands in a directory.
-/

namespace ExportCover

/-- What stands at a path. -/
inductive Entry where
  | file (content : Bytes)
  | directory
  | link (target : String)
deriving DecidableEq, Repr

/-- A file tree: the entries below the root. -/
structure FileTree where
  entries : List (Path × Entry)
deriving DecidableEq, Repr

namespace FileTree

/-- The tree with nothing below its root. -/
def empty : FileTree := ⟨[]⟩

/-- What stands at a path, links not followed. -/
def entry? (tree : FileTree) (path : Path) : Option Entry :=
  if path.isEmpty then some .directory else (tree.entries.find? (·.1 == path)).map (·.2)

/-- The entry at a path is a directory. -/
def isDirectoryAt (tree : FileTree) (path : Path) : Bool :=
  tree.entry? path == some .directory

/-- The names of the entries in a directory, in the order of their characters. -/
def namesIn (tree : FileTree) (directory : Path) : List String :=
  (tree.entries.filterMap fun (path, _) =>
    if path.dropLast == directory then path.getLast? else none).mergeSort fun a b => a ≤ b

/-- The paths of all directories. -/
def directories (tree : FileTree) : List Path :=
  [] :: (tree.entries.filter (·.2 == .directory)).map (·.1)

/-- The number of links. -/
def linkCount (tree : FileTree) : Nat :=
  tree.entries.countP fun (_, entry) => match entry with
    | .link _ => true
    | _ => false

/-- No path is listed twice, the root is not listed, and every entry stands in a directory. -/
def WellFormed (tree : FileTree) : Prop :=
  (tree.entries.map (·.1)).Nodup ∧
    ∀ listed ∈ tree.entries, listed.1 ≠ [] ∧ tree.entry? listed.1.dropLast = some .directory

/-- Puts an entry at a path, in place of what stands there. -/
def put (tree : FileTree) (path : Path) (entry : Entry) : FileTree :=
  if tree.entries.any (·.1 == path) then
    ⟨tree.entries.map fun listed => if listed.1 == path then (path, entry) else listed⟩
  else ⟨tree.entries ++ [(path, entry)]⟩

/-- Removes the entry at a path and everything below it. -/
def prune (tree : FileTree) (path : Path) : FileTree :=
  ⟨tree.entries.filter fun listed => !path.isPrefixOf listed.1⟩

/-- A directory listed in the table is one of the directories. -/
theorem mem_directories_of_entry? {tree : FileTree} {path : Path}
    (found : tree.entry? path = some .directory) : path ∈ tree.directories := by
  unfold entry? at found
  split at found
  next root => simp [directories, List.isEmpty_iff.mp root]
  next =>
    obtain ⟨listed, hfind, hentry⟩ := Option.map_eq_some_iff.mp found
    refine List.mem_cons_of_mem _ (List.mem_map.mpr ⟨listed, ?_, ?_⟩)
    · exact List.mem_filter.mpr ⟨List.mem_of_find?_eq_some hfind, by simp [hentry]⟩
    · simpa using List.find?_some hfind

end FileTree

end ExportCover
