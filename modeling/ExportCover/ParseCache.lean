import ExportCover.FileTree.Resolve
import ExportCover.Source.Program

/-!
# Parsed files

A cache of parsed files, by file and grammar. A file that is in the cache is not read again until it
is released.
-/

namespace ExportCover

/-- A file as it was read, and its tree. -/
structure ParsedFile where
  source : Bytes
  program : Program
deriving Repr

/-- Parsed files by their path texts and the names of their grammars. -/
structure ParseCache where
  entries : List ((String × String) × ParsedFile)
deriving Repr

namespace ParseCache

/-- The cache without files. -/
def empty : ParseCache := ⟨[]⟩

/-- The number of files in the cache. -/
def size (cache : ParseCache) : Nat :=
  cache.entries.length

/-- The file in the cache under a key. -/
def find? (cache : ParseCache) (file grammar : String) : Option ParsedFile :=
  cache.entries.lookup (file, grammar)

/-- Drops a file; it is read again when it is next asked for. -/
def release (cache : ParseCache) (file grammar : String) : ParseCache :=
  ⟨cache.entries.filter fun entry => !(entry.1 == (file, grammar))⟩

/-- A file as it is on the disk now, parsed. The file is read before the grammar is looked up. -/
def readWith (parser : String → Bytes → Except Fault Program) (disk : Disk)
    (file grammar : String) : Except Fault ParsedFile := do
  let source ← disk.read file
  return ⟨source, ← parser grammar source⟩

/-- The parsed file under a key, read now if it is not in the cache. -/
def getOrParseWith (parser : String → Bytes → Except Fault Program) (cache : ParseCache)
    (disk : Disk) (file grammar : String) : Except Fault (ParsedFile × ParseCache) :=
  match cache.find? file grammar with
  | some parsed => .ok (parsed, cache)
  | none => do
    let parsed ← readWith parser disk file grammar
    return (parsed, ⟨cache.entries ++ [((file, grammar), parsed)]⟩)

/-- The tree of a source text that is given; it does not go through the cache. -/
def parseSource (grammar : String) (source : Bytes) : Except Fault Program := do
  return Program.parse (← Grammar.ofName grammar) source

/-- The parsed file under a key, in one of the grammars. -/
def getOrParse (cache : ParseCache) (disk : Disk) (file grammar : String) :
    Except Fault (ParsedFile × ParseCache) :=
  cache.getOrParseWith parseSource disk file grammar

end ParseCache

end ExportCover
