import ExportCover.Run.Basic

/-!
# Coverage

An exported function is covered if some test file imports its name from its module. The specifier of
the import is compared with the way in which the module is spelled from the test file. Test files
are looked for and read once in a run.
-/

namespace ExportCover

namespace Config

/-- The specifier of the file at a relative path, under the extensions and the index name of a
configuration. An index name that is no text is the stem of no file. -/
def specifierOf (config : Config) (path : String) : Except Fault String := do
  let extensions ← config.get "extensions"
  let index ← config.get "index_name"
  let ordered ← orderedExtensions extensions
  let folded := Specifier.foldSeparators path
  let name := Path.baseName folded
  let isBroken := ordered.broken && !ordered.texts.any (Specifier.isExtensionOf name)
  if isBroken then .error .illTyped
  else
    let stem := Specifier.stripFirst name ordered.texts
    return Specifier.ofParts (Specifier.directory folded) stem (index.text? == some stem)

/-- A specifier without the index name at its end. An index name that is no text is looked for as it
is shown; without a length it cannot be removed. -/
def stripIndex (index : Json) (specifier : String) : Except Fault String :=
  if Text.endsWith specifier ("/" ++ index.display) then
    match index.size? with
    | some length => .ok (Specifier.dropEnding specifier length)
    | none => .error .illTyped
  else .ok specifier

/-- Two specifiers spell one module under an index name. -/
def sameModule (index : Json) (a b : String) : Except Fault Bool := do
  let a ← stripIndex index (Specifier.foldSeparators a)
  let b ← stripIndex index (Specifier.foldSeparators b)
  return Specifier.sameUpToSlash a b

end Config

namespace Run

/-- The part of the program that notices about imports come from. -/
def importsOrigin : String := "requiretest.engine.imports"

/-- The part of the program that notices about coverage come from. -/
def coverageOrigin : String := "requiretest.engine.coverage"

/-- What test files are looked for. -/
def query (run : Run) : Except Fault Discovery.Query := do
  let suffixes ← run.config.get "test_suffixes"
  let exclusions ← run.config.exclusions
  return ⟨← Listing.ofValue suffixes, exclusions⟩

/-- The test files under the root of a run: those found on the first successful search. -/
def testFiles (run : Run) (disk : Disk) : Work (List String) := do
  match (← Work.memo).testFiles? with
  | some files => return files
  | none =>
    let query ← run.query
    let (outcome, notices) := Discovery.testFiles disk run.root query
    Work.noteAll notices
    let files := (← outcome).map Path.render
    Work.modifyMemo fun memo => { memo with testFiles? := some files }
    return files

/-- The imports of a test file, read through the cache; the tree is dropped afterwards. -/
def readImportFacts (disk : Disk) (file : String) : Work (List ImportFact) := do
  let grammar ← Grammar.ofPath file
  let (parsed, cache) ← (← Work.memo).cache.getOrParse disk file grammar.name
  Work.modifyMemo fun memo => { memo with cache := cache }
  if parsed.program.isDamaged then
    Work.note ⟨.warning, importsOrigin,
      "Syntax errors in " ++ file ++ "; using the import statements that parsed"⟩
  let facts := parsed.program.root.importFacts
  Work.modifyMemo fun memo => { memo with cache := memo.cache.release file grammar.name }
  Work.note (.debug importsOrigin
    (file ++ ": " ++ toString facts.length ++ " relative import(s)"))
  return facts

/-- The imports of a test file that cannot be read: none, unless the configuration says to stop. -/
def unreadable (run : Run) (file : String) (cause : Fault) : Work (List ImportFact) := do
  if ← run.config.isOn "fail_on_unreadable" then
    throw (.unreadableTest file cause)
  Work.note (.skipped coverageOrigin ("read test file " ++ file) cause.message)
  return []

/-- The fault says that a file cannot be read as a source text. -/
def isUnreadable : Fault → Bool
  | .system _ _ | .noGrammar _ | .unknownGrammar _ => true
  | _ => false

/-- The imports of a test file, read once in a run. -/
def importFacts (run : Run) (disk : Disk) (file : String) : Work (List ImportFact) := do
  match (← Work.memo).imports.lookup file with
  | some facts => return facts
  | none =>
    let facts ← tryCatch (readImportFacts disk file) fun fault =>
      if isUnreadable fault then run.unreadable file fault else throw fault
    Work.modifyMemo fun memo => { memo with imports := memo.imports ++ [(file, facts)] }
    return facts

/-- How a module is spelled in a test file. -/
def target (run : Run) (disk : Disk) (testFile moduleFile : String) : Except Fault String := do
  run.config.specifierOf (← Specifier.relativePath disk.cwd testFile moduleFile)

/-- One of the imports brings in a name from the module that is spelled `target`. -/
def importsName (index : Json) (target name : String) : List ImportFact → Except Fault Bool
  | [] => .ok false
  | fact :: rest => do
    if (← Config.sameModule index fact.specifier target) && fact.bound.names.contains name then
      return true
    importsName index target name rest

/-- The first of the test files that imports a name from a module. -/
def coveringFile (run : Run) (disk : Disk) (index : Json) (name moduleFile : String) :
    List String → Work (Option String)
  | [] => return none
  | testFile :: rest => do
    let target ← run.target disk testFile moduleFile
    let facts ← run.importFacts disk testFile
    if ← importsName index target name facts then return some testFile
    coveringFile run disk index name moduleFile rest

/-- Some test file imports the name from the module. -/
def isCovered (run : Run) (disk : Disk) (name moduleFile : String) : Work Bool := do
  let place ← disk.resolveFrom run.root moduleFile
  let index ← run.config.get "index_name"
  match ← run.coveringFile disk index name (Path.render place) (← run.testFiles disk) with
  | some testFile =>
    Work.note (.debug coverageOrigin (name ++ " covered by " ++ testFile))
    return true
  | none => return false

end Run

end ExportCover
