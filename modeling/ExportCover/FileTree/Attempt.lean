import ExportCover.FileTree.Edit

/-!
# Replacing a file call by call

The calls to the operating system of which the replacement of a file consists. The system may refuse
any of them, whatever the file tree is like: a disk may be full or a directory closed. An error ends
the sequence of calls, and what the calls before it did stays done unless the sequence itself undoes
it: only the temporary file is removed again.
-/

namespace ExportCover

/-- A call that the system does not carry out. -/
structure Refusal where
  error : SystemError
  /-- The number of bytes that were written by then, if the call was to write some. -/
  written : Nat
deriving DecidableEq, Repr

/-- A file tree and what becomes of the next calls: each of them is refused or tried. All calls
after the last one listed are tried. -/
structure System where
  tree : FileTree
  answers : List (Option Refusal)
deriving DecidableEq, Repr

/-- A sequence of calls. An error does not undo the calls before it. -/
abbrev Attempt := ExceptT SystemError (StateM System)

namespace Attempt

/-- The outcome of a sequence of calls and the system after it. -/
def exec {α : Type} (attempt : Attempt α) (system : System) : Except SystemError α × System :=
  Id.run (StateT.run (ExceptT.run attempt) system)

/-- Makes a call. One that is tried succeeds or leaves the tree as it is; a refused one leaves what
`cut` makes of the tree. -/
def call {α : Type} (carryOut : FileTree → Except SystemError (α × FileTree))
    (cut : Nat → FileTree → FileTree) : Attempt α :=
  ExceptT.mk fun system =>
    match system.answers with
    | some refusal :: later => (.error refusal.error, ⟨cut refusal.written system.tree, later⟩)
    | _ =>
      match carryOut system.tree with
      | .ok (a, tree) => (.ok a, ⟨tree, system.answers.tail⟩)
      | .error error => (.error error, ⟨system.tree, system.answers.tail⟩)

/-- Makes a directory. One that is there already is no error. -/
def makeDirectory (path : List String) : Attempt Unit :=
  tryCatch
    (call (fun tree => (fun made => ((), made)) <$> tree.add path .directory) fun _ tree => tree)
    fun error => do
      let system ← get
      if error != .noEntry && system.tree.isDirectory path then return () else throw error

/-- Makes a directory and the directories above it that are missing, at most `depth` of them. -/
def makeDirectoriesWithin : Nat → List String → Attempt Unit
  | 0, path => makeDirectory path
  | depth + 1, path =>
    tryCatch (makeDirectory path) fun error =>
      if error != .noEntry || path.isEmpty then throw error
      else do
        makeDirectoriesWithin depth path.dropLast
        makeDirectory path

/-- Makes a directory and the directories above it that are missing. -/
def makeDirectories (path : List String) : Attempt Unit :=
  makeDirectoriesWithin path.length path

/-- Makes an empty file with a new name in a directory and gives its place. -/
def openTemporary (newName : FileTree → Path → String) (folder : List String) : Attempt Path :=
  call (fun tree => (fun directory =>
      let place := directory ++ [newName tree directory]
      (place, tree.put place (.file []))) <$> tree.folderAt folder)
    fun _ tree => tree

/-- Writes the content of a file that is open. If that breaks off a part of it has been written. -/
def fill (place : Path) (content : Bytes) : Attempt Unit :=
  call (fun tree => .ok ((), tree.put place (.file content)))
    fun written tree => tree.put place (.file (content.take written))

/-- Moves a file over what stands at a path. -/
def moveOver (source : Path) (path : List String) : Attempt Unit :=
  call (fun tree => (fun moved => ((), moved)) <$> tree.moveOver source path) fun _ tree => tree

/-- Removes a file. This is never refused. -/
def discard (place : Path) : Attempt Unit :=
  modify fun system => { system with tree := system.tree.prune place }

/-- Writes a file as a whole or not at all: its directory is made, the content goes to a temporary
file, and that takes the place of the file. After an error the temporary file is removed. -/
def replaceFile (newName : FileTree → Path → String) (path : List String) (content : Bytes) :
    Attempt Unit := do
  makeDirectories path.dropLast
  let temporary ← openTemporary newName (Path.follow [] path.dropLast)
  tryCatch (do fill temporary content; moveOver temporary path) fun error => do
    discard temporary
    throw error

end Attempt

end ExportCover
