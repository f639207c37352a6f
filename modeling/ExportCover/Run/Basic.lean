import ExportCover.Config.Store
import ExportCover.Imports
import ExportCover.ParseCache

/-!
# Runs

A run of the check has a root directory and a configuration. What it has learned about the test
files is its memo: the list of the test files, fixed on first use, and the imports of those that
were read. The disk may change between two operations; the memo does not follow it.
-/

namespace ExportCover

/-- A run of the check. -/
structure Run where
  /-- The canonical path text of the project's root. -/
  root : String
  config : Config
deriving Repr

/-- What a run has learned so far. -/
structure Memo where
  /-- The test files, once they have been looked for. -/
  testFiles? : Option (List String)
  /-- The imports of the test files that have been read. -/
  imports : List (String × List ImportFact)
  cache : ParseCache
deriving Repr

namespace Memo

/-- Nothing is known yet. -/
def empty : Memo := ⟨none, [], ParseCache.empty⟩

end Memo

/-- What an operation of a run leaves behind, beside its outcome. -/
structure Trace where
  memo : Memo
  /-- What was noticed, in order. -/
  notices : List Notice
deriving Repr

/-- An operation of a run. A fault does not undo what was learned and noticed before it. -/
abbrev Work := ExceptT Fault (StateM Trace)

namespace Work

/-- Notes something. -/
def note (notice : Notice) : Work Unit :=
  modify fun trace => { trace with notices := trace.notices ++ [notice] }

/-- Notes several things. -/
def noteAll (notices : List Notice) : Work Unit :=
  modify fun trace => { trace with notices := trace.notices ++ notices }

/-- What is known. -/
def memo : Work Memo := do
  return (← get).memo

/-- Changes what is known. -/
def modifyMemo (f : Memo → Memo) : Work Unit :=
  modify fun trace => { trace with memo := f trace.memo }

/-- An outcome that needs nothing of the run's memo. -/
def ofExcept {α : Type} (outcome : Except Fault α) : Work α :=
  ExceptT.mk (pure outcome)

/-- An outcome that needs nothing of the memo is an operation. -/
instance : MonadLift (Except Fault) Work := ⟨ofExcept⟩

/-- The outcome of an operation, what is known after it and what was noticed. -/
def runWith {α : Type} (work : Work α) (memo : Memo) : Except Fault α × Trace :=
  Id.run (StateT.run (ExceptT.run work) ⟨memo, []⟩)

end Work

namespace Run

/-- The root of a run that was asked for by a path text; the empty text is the working directory. -/
def rootOf (disk : Disk) (root : String) : Except Fault String := do
  return Path.render (← disk.resolveFrom (Path.render disk.cwd) root)

/-- The configuration that is stored below a root. -/
def storedConfig (disk : Disk) (root : String) : Config :=
  Config.load disk.tree (disk.names root ++ Config.fileNames)

/-- A run with a configuration of its own, or with the one that is stored below its root. -/
def create (disk : Disk) (root : String) (config? : Option Config) : Except Fault Run := do
  let root ← rootOf disk root
  return ⟨root, config?.getD (storedConfig disk root)⟩

end Run

end ExportCover
