import ExportCover.FileTree.Basic

/-!
# Following paths

Two ways to follow a path through a file tree. `locate` is the way of the operating system: every
name must be there, links are followed as they come, and after forty links it gives up. `canonical`
writes a path without links as far as it can: names that are not there stay, and a link that leads
back to itself ends the work, with the rest of the path as it stands.
-/

namespace ExportCover

/-- How `locate` treats the last name of a path. -/
structure LastName where
  /-- A link at the end is followed. -/
  followLink : Bool
  /-- The last name need not be there. -/
  mayBeMissing : Bool
deriving DecidableEq, Repr

namespace FileTree

/-- Where a link in a directory leads from: the root, or that directory. -/
def linkStart (directory : Path) (target : String) : Path :=
  if Path.isAbsolute target then [] else directory

/-- The names of a link's target. A separator at its end asks for a directory, as the name `.` does. -/
def targetNames (target : String) : List String :=
  Path.names target
    ++ if Text.endsWith target "/" || Text.endsWith target "/." then ["."] else []

/-- Follows names from a directory; `jump` goes on after a link. -/
def locateNames (tree : FileTree) (last : LastName)
    (jump : Path → List String → Except SystemError Path) :
    Path → List String → Except SystemError Path
  | here, [] => .ok here
  | here, name :: rest =>
    if name == ".." then locateNames tree last jump here.dropLast rest
    else if name == "." then locateNames tree last jump here rest
    else
      match tree.entry? (here ++ [name]) with
      | none =>
        if !last.mayBeMissing then .error .noEntry
        else if rest.isEmpty then .ok (here ++ [name])
        else if rest == ["."] then .error .isDirectory
        else .error .noEntry
      | some (.file _) => if rest.isEmpty then .ok (here ++ [name]) else .error .notDirectory
      | some .directory => locateNames tree last jump (here ++ [name]) rest
      | some (.link target) =>
        if rest.isEmpty && !last.followLink then .ok (here ++ [name])
        else jump (linkStart here target) (targetNames target ++ rest)

/-- Follows names from a directory through at most the given number of links. -/
def locateWithin (tree : FileTree) (last : LastName) :
    Nat → Path → List String → Except SystemError Path
  | 0 => tree.locateNames last fun _ _ => .error .tooManyLinks
  | links + 1 => tree.locateNames last (locateWithin tree last links)

/-- The most links that the operating system follows on one path. -/
def linkLimit : Nat := 40

/-- The place that a path leads to, all links followed. -/
def locate (tree : FileTree) (path : List String) : Except SystemError Path :=
  tree.locateWithin ⟨true, false⟩ linkLimit [] path

/-- The place that a path leads to; a link at its end is not followed. -/
def locateLink (tree : FileTree) (path : List String) : Except SystemError Path :=
  tree.locateWithin ⟨false, false⟩ linkLimit [] path

/-- The place where writing to a path would write. -/
def locateForWriting (tree : FileTree) (path : List String) : Except SystemError Path :=
  tree.locateWithin ⟨true, true⟩ linkLimit [] path

/-- The entry that a path leads to, all links followed. -/
def status (tree : FileTree) (path : List String) : Except SystemError Entry :=
  match tree.locate path with
  | .error e => .error e
  | .ok place =>
    match tree.entry? place with
    | some entry => .ok entry
    | none => .error .noEntry

/-- The path leads to a directory. -/
def isDirectory (tree : FileTree) (path : List String) : Bool :=
  match tree.status path with
  | .ok .directory => true
  | _ => false

/-- The path leads to a file. -/
def isFile (tree : FileTree) (path : List String) : Bool :=
  match tree.status path with
  | .ok (.file _) => true
  | _ => false

/-- The content of the file that a path leads to. -/
def read (tree : FileTree) (path : List String) : Except SystemError Bytes :=
  match tree.status path with
  | .error e => .error e
  | .ok (.file content) => .ok content
  | .ok _ => .error .isDirectory

/-- The names in the directory that a path leads to, in the order of their characters. -/
def list (tree : FileTree) (path : List String) : Except SystemError (List String) :=
  match tree.locate path with
  | .error e => .error e
  | .ok place => if tree.isDirectoryAt place then .ok (tree.namesIn place) else .error .notDirectory

/-- A place with the way in which it is spelled. A spelling from the working directory leaves out the
names of that directory, up to those that it goes back over. -/
structure Spelled where
  path : Path
  /-- The number of leading names that are left out; nothing for a spelling from the root. -/
  implied : Option Nat
deriving DecidableEq, Repr

namespace Spelled

/-- The root. -/
def root : Spelled := ⟨[], none⟩

/-- The working directory, spelled from itself. -/
def workingDirectory (cwd : Path) : Spelled := ⟨cwd, some cwd.length⟩

/-- One name further. -/
def down (place : Spelled) (name : String) : Spelled :=
  ⟨place.path ++ [name], place.implied⟩

/-- One name back. -/
def up (place : Spelled) : Spelled :=
  ⟨place.path.dropLast, place.implied.map fun count =>
    if place.path.length ≤ count then count - 1 else count⟩

/-- Where a link in a directory leads from: the root, or that directory. -/
def linkStart (directory : Spelled) (target : String) : Spelled :=
  if Path.isAbsolute target then root else directory

/-- Follows names without looking at the file tree. -/
def follow (place : Spelled) (names : List String) : Spelled :=
  ⟨Path.follow place.path names, place.implied⟩

end Spelled

/-- The links met so far on the way to a canonical path, with where each of them leads once that is
known. A link is known again by its spelling. -/
abbrev LinksMet := List (Spelled × Option Spelled)

/-- How far a path could be written without links. -/
structure Canonical where
  place : Spelled
  /-- The end was reached: no link led back to itself. -/
  complete : Bool
  met : LinksMet
deriving DecidableEq, Repr

/-- Writes the path that names lead to without links; `enter` does the same for a link's target. -/
def canonicalNames (tree : FileTree) (enter : LinksMet → Spelled → List String → Canonical) :
    LinksMet → Spelled → List String → Canonical
  | met, here, [] => ⟨here, true, met⟩
  | met, here, name :: rest =>
    if name == ".." then canonicalNames tree enter met here.up rest
    else
      let next := here.down name
      match tree.entry? next.path with
      | some (.link target) =>
        match met.lookup next with
        | some (some known) => canonicalNames tree enter met known rest
        | some none => ⟨next.follow rest, false, met⟩
        | none =>
          let inner := enter ((next, none) :: met) (here.linkStart target) (Path.names target)
          if inner.complete then
            canonicalNames tree enter ((next, some inner.place) :: inner.met) inner.place rest
          else ⟨inner.place.follow rest, false, inner.met⟩
      | _ => canonicalNames tree enter met next rest

/-- Writes a path without links, entering at most the given number of links inside each other. -/
def canonicalWithin (tree : FileTree) : Nat → LinksMet → Spelled → List String → Canonical
  | 0 => fun met here names => ⟨here.follow names, false, met⟩
  | depth + 1 => tree.canonicalNames (canonicalWithin tree depth)

/-- The path without links that names lead to, as far as it can be followed. Links inside each other
have different spellings, of which each link has at most one from the root and some from the working
directory, so that the number of links and the length of the way back bound the depth. -/
def canonicalFrom (tree : FileTree) (start : Spelled) (names : List String) : Path :=
  let spellings := start.path.length + 2
  (tree.canonicalWithin (tree.linkCount * spellings + 1) [] start names).place.path

/-- The path without links that a path from the root leads to, as far as it can be followed. -/
def canonical (tree : FileTree) (path : List String) : Path :=
  tree.canonicalFrom Spelled.root path

/-- The canonical form of a path; links that lead nowhere but to themselves are a fault. -/
def resolveFrom (tree : FileTree) (start : Spelled) (names : List String) : Except Fault Path :=
  let place := tree.canonicalFrom start names
  match tree.status place with
  | .error .tooManyLinks => .error (.linkLoop (Path.render place))
  | _ => .ok place

/-- The canonical form of a path from the root. -/
def resolve (tree : FileTree) (path : List String) : Except Fault Path :=
  tree.resolveFrom Spelled.root path

end FileTree

/-- A file tree seen from a working directory. -/
structure Disk where
  tree : FileTree
  cwd : Path
deriving DecidableEq, Repr

namespace Disk

/-- The names from the root to what a path text names; `..` is still among them. -/
def names (disk : Disk) (text : String) : List String :=
  if Path.isAbsolute text then Path.names text else disk.cwd ++ Path.names text

/-- The canonical form of a path text. -/
def resolve (disk : Disk) (text : String) : Except Fault Path :=
  if Path.isAbsolute text then disk.tree.resolve (Path.names text)
  else disk.tree.resolveFrom (FileTree.Spelled.workingDirectory disk.cwd) (Path.names text)

/-- A path text from the root; a relative one is put behind a directory. -/
def absolute (directory text : String) : String :=
  if Path.isAbsolute text then text else directory ++ "/" ++ text

/-- The canonical form of a path text that is taken from `root` if it is relative. -/
def resolveFrom (disk : Disk) (root : String) (text : String) : Except Fault Path :=
  disk.resolve (absolute root text)

/-- A path text relative to a root, with `/` between the names: what stands behind the root on it, or
else the way there from the root. -/
def relativeTo (disk : Disk) (root text : String) : Except Fault String := do
  let base ← disk.resolve root
  let place ← disk.resolve text
  let names := (Path.below? place base).getD (Path.relative place base)
  return String.ofList ((Path.renderNames names).toList.map fun c => if c == '\\' then '/' else c)

/-- The content of the file that a path text names. -/
def read (disk : Disk) (text : String) : Except Fault Bytes :=
  match disk.tree.read (disk.names text) with
  | .ok content => .ok content
  | .error e => .error (.system e (Path.tidy text))

end Disk

end ExportCover
