import ExportCover.FileTree.Resolve

/-!
# Editing file trees

Making directories, links and files, removing entries, and `replaceFile`, which writes a file as a
whole or not at all: the content goes to a temporary file beside the target, which then takes the
target's place. An edit gives the tree that it leaves behind also when it fails.
-/

namespace ExportCover

/-- The outcome of an edit: the tree after it, and the error if it failed. -/
structure Edited where
  tree : FileTree
  error : Option SystemError
deriving DecidableEq, Repr

namespace FileTree

/-- The place of a new entry: the directory that a path stands in, and its last name. -/
def newPlace (tree : FileTree) (path : List String) : Except SystemError (Path × String) :=
  match path.getLast? with
  | none => .error .alreadyExists
  | some name =>
    match tree.locate path.dropLast with
    | .error e => .error e
    | .ok directory =>
      if !tree.isDirectoryAt directory then .error .notDirectory
      else if name == ".." then .error .alreadyExists
      else .ok (directory, name)

/-- Adds an entry where none is. -/
def add (tree : FileTree) (path : List String) (entry : Entry) : Except SystemError FileTree :=
  match tree.newPlace path with
  | .error e => .error e
  | .ok (directory, name) =>
    match tree.entry? (directory ++ [name]) with
    | some _ => .error .alreadyExists
    | none => .ok (tree.put (directory ++ [name]) entry)

/-- Makes a directory. One that is there already is no error. -/
def makeDirectory (tree : FileTree) (path : List String) : Edited :=
  match tree.add path .directory with
  | .ok tree => ⟨tree, none⟩
  | .error e => if e != .noEntry && tree.isDirectory path then ⟨tree, none⟩ else ⟨tree, some e⟩

/-- Makes a directory and the directories above it that are missing, at most `depth` of them. -/
def makeDirectoriesWithin : Nat → FileTree → List String → Edited
  | 0, tree, path => tree.makeDirectory path
  | depth + 1, tree, path =>
    match (tree.makeDirectory path).error with
    | some .noEntry =>
      if path.isEmpty then tree.makeDirectory path
      else
        let above := makeDirectoriesWithin depth tree path.dropLast
        match above.error with
        | some e => ⟨above.tree, some e⟩
        | none => above.tree.makeDirectory path
    | _ => tree.makeDirectory path

/-- Makes a directory and the directories above it that are missing. -/
def makeDirectories (tree : FileTree) (path : List String) : Edited :=
  makeDirectoriesWithin path.length tree path

/-- Writes a file; a link at its place is followed. -/
def write (tree : FileTree) (path : List String) (content : Bytes) : Edited :=
  match tree.locateForWriting path with
  | .error e => ⟨tree, some e⟩
  | .ok place =>
    if tree.isDirectoryAt place then ⟨tree, some .isDirectory⟩
    else ⟨tree.put place (.file content), none⟩

/-- Removes what stands at a path, with everything below it; a link is not followed. -/
def remove (tree : FileTree) (path : List String) : Edited :=
  match tree.locateLink path with
  | .error e => ⟨tree, some e⟩
  | .ok place => ⟨tree.prune place, none⟩

/-- Makes a symbolic link. -/
def link (tree : FileTree) (path : List String) (target : String) : Edited :=
  match tree.add path (.link target) with
  | .ok tree => ⟨tree, none⟩
  | .error e => ⟨tree, some e⟩

/-- Runs an edit after the directories above a path have been made. -/
def withParents (tree : FileTree) (path : List String) (edit : FileTree → Edited) : Edited :=
  let above := tree.makeDirectories path.dropLast
  match above.error with
  | some e => ⟨above.tree, some e⟩
  | none => edit above.tree

/-- A name for a temporary file that no entry of a directory has. -/
def freshName (tree : FileTree) (directory : Path) : String :=
  let candidates := (List.range (tree.entries.length + 1)).map fun n => "tmp" ++ toString n ++ ".tmp"
  (candidates.find? fun name => (tree.entry? (directory ++ [name])).isNone).getD "tmp.tmp"

/-- Moves a file over the entry at a path. A directory there is an error; a link is replaced. -/
def moveOver (tree : FileTree) (source : Path) (path : List String) :
    Except SystemError FileTree :=
  match path.getLast? with
  | none => .error .busy
  | some name =>
    match tree.locate path.dropLast with
    | .error e => .error e
    | .ok directory =>
      if name == ".." || name == "." then .error .busy
      else
        match tree.entry? (directory ++ [name]), tree.entry? source with
        | some .directory, _ => .error .isDirectory
        | _, some entry => .ok ((tree.prune source).put (directory ++ [name]) entry)
        | _, none => .error .noEntry

/-- The directory that a path leads to, all links followed. -/
def folderAt (tree : FileTree) (path : List String) : Except SystemError Path :=
  match tree.locate path with
  | .error e => .error e
  | .ok place => if tree.isDirectoryAt place then .ok place else .error .notDirectory

/-- Writes a file as a whole or not at all. Missing directories above it are made first. The names
of the directory for the temporary file are followed without looking at the file tree before it is
looked for. -/
def replaceFile (tree : FileTree) (path : List String) (content : Bytes) : Edited :=
  tree.withParents path fun tree =>
    match tree.folderAt (Path.follow [] path.dropLast) with
    | .error e => ⟨tree, some e⟩
    | .ok directory =>
      let temporary := directory ++ [tree.freshName directory]
      let written := tree.put temporary (.file content)
      match written.moveOver temporary path with
      | .ok moved => ⟨moved, none⟩
      | .error e => ⟨written.prune temporary, some e⟩

end FileTree

/-- The names from the root to what a path text names as the place of a file. A relative text
without names stands for the working directory under its name `.`, in whose place no file can be
put. -/
def Disk.targetNames (disk : Disk) (text : String) : List String :=
  if !Path.isAbsolute text && (Path.names text).isEmpty then disk.cwd ++ ["."] else disk.names text

end ExportCover
