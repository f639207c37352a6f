import ExportCover.Proofs.Run.Work
import ExportCover.Run.Operation

/-!
# Readings

A reading says what the test files are and what each file imports, once and for all. The operations
of a run have a form that consults a reading instead of a memo: it has no state and notes nothing.
`Run.gives_perform` is the refinement between the two forms: where looking for test files and
reading imports agree with a reading, every operation agrees with it. `Run.moves_perform` is the
matching statement about the memo: whatever these two do to it, every operation does.
-/

namespace ExportCover

/-- What is read of the test files: where they are and what each file imports. -/
structure Reading where
  files : Except Fault (List String)
  imports : String → Except Fault (List ImportFact)

namespace Reading

variable (reading : Reading) (run : Run) (disk : Disk)

/-- The first of the test files that imports a name from a module. -/
def coveringFile (index : Json) (name moduleFile : String) :
    List String → Except Fault (Option String)
  | [] => .ok none
  | testFile :: rest => do
    let target ← run.target disk testFile moduleFile
    let facts ← reading.imports testFile
    if ← Run.importsName index target name facts then return some testFile
    coveringFile index name moduleFile rest

/-- Some test file imports the name from the module. -/
def isCovered (name moduleFile : String) : Except Fault Bool := do
  let place ← disk.resolveFrom run.root moduleFile
  let index ← run.config.get "index_name"
  let files ← reading.files
  return (← reading.coveringFile run disk index name (Path.render place) files).isSome

/-- The functions that no test file covers, as diagnostics. -/
def missingTests (moduleFile file : String) (locale : Json) :
    List ExportedFunction → Except Fault (List Diagnostic)
  | [] => .ok []
  | function :: rest => do
    if ← reading.isCovered run disk function.name moduleFile then
      missingTests moduleFile file locale rest
    else
      let language ← Run.localeOf locale
      return Diagnostic.missingTest function file language
        :: (← missingTests moduleFile file locale rest)

/-- The diagnostics about exports of a module. -/
def diagnose (exports : Exports) (moduleFile : String) : Except Fault (List Diagnostic) := do
  let file ← disk.relativeTo run.root moduleFile
  let locale ← run.config.get "locale"
  let missing ← reading.missingTests run disk moduleFile file locale exports.functions
  return missing ++ (← run.uncheckedExports file locale exports.unchecked)

/-- The diagnostics about the tree of a module at a canonical path. -/
def checkTree (moduleFile : String) (program : Node) : Except Fault (List Diagnostic) := do
  reading.diagnose run disk (← run.exportsOf program) moduleFile

/-- The diagnostics about a module. Its text is read from the disk unless it is given. -/
def checkModule (moduleFile : String) (source? : Option Bytes) :
    Except Fault (List Diagnostic) := do
  let place ← disk.resolveFrom run.root moduleFile
  if !(← run.shouldCheck disk (Path.render place)) then return []
  let grammar ← Grammar.ofPath (Path.render place)
  let source ← source?.elim (disk.read (Path.render place)) .ok
  reading.checkTree run disk (Path.render place) (Program.parse grammar source).root

/-- The diagnostics about one export statement of a module. -/
def checkExport (moduleFile : String) (symbols : SymbolTable) (preceding : List Node)
    (statement : Node) : Except Fault (List Diagnostic) := do
  let place ← disk.resolveFrom run.root moduleFile
  let value ← run.config.get "ignore_marker"
  let marker ← Run.markerFor value (Node.commentAbove? preceding statement).isSome
  if statement.isMarked marker preceding then return []
  reading.diagnose run disk (← statement.exportsOfStatement symbols) (Path.render place)

/-- The answer of a run to a question. -/
def answer : Operation → Except Fault Answer
  | .testFiles => .files <$> reading.files
  | .importFacts file => .facts <$> reading.imports file
  | .target testFile moduleFile => .specifier <$> run.target disk testFile moduleFile
  | .isCovered name moduleFile => .verdict <$> reading.isCovered run disk name moduleFile
  | .shouldCheck moduleFile => .verdict <$> run.shouldCheck disk moduleFile
  | .checkModule moduleFile source? =>
    .diagnostics <$> reading.checkModule run disk moduleFile source?
  | .checkExport moduleFile symbols preceding statement =>
    .diagnostics <$> reading.checkExport run disk moduleFile symbols preceding statement

end Reading

namespace Run

open Work

variable {run : Run} {disk : Disk}

section Gives

variable {kept : Memo → Prop} {reading : Reading}
  (files : Gives kept (run.testFiles disk) reading.files)
  (imports : ∀ file, Gives kept (run.importFacts disk file) (reading.imports file))

include imports in
/-- The search for a covering file agrees with the reading. -/
lemma gives_coveringFile {index name moduleFile} (testFiles : List String) :
    Gives kept (run.coveringFile disk index name moduleFile testFiles)
      (reading.coveringFile run disk index name moduleFile testFiles) := by
  induction testFiles with
  | nil => exact .pure none
  | cons testFile rest ih =>
    rw [coveringFile, Reading.coveringFile]
    refine (Gives.lift _).bind fun target _ => (imports testFile).bind fun facts _ => ?_
    refine (Gives.lift _).bind fun found _ => ?_
    cases found with
    | true => exact .pure _
    | false => exact ih

include files imports

/-- A lookup gives what its reading says. -/
lemma gives_isCovered {name moduleFile} :
    Gives kept (run.isCovered disk name moduleFile)
      (reading.isCovered run disk name moduleFile) := by
  rw [isCovered, Reading.isCovered]
  refine (Gives.lift _).bind fun place _ => (Gives.lift _).bind fun index _ => ?_
  refine files.bind fun testFiles _ => (gives_coveringFile imports testFiles).bind fun found _ => ?_
  cases found with
  | none => exact .pure false
  | some testFile => exact (Gives.note _).bind fun _ _ => .pure true

/-- A report on functions gives what its reading says. -/
lemma gives_missingTests {moduleFile file locale} (functions : List ExportedFunction) :
    Gives kept (run.missingTests disk moduleFile file locale functions)
      (reading.missingTests run disk moduleFile file locale functions) := by
  induction functions with
  | nil => exact .pure []
  | cons function rest ih =>
    rw [missingTests, Reading.missingTests]
    refine (gives_isCovered files imports).bind fun covered _ => ?_
    cases covered with
    | true => exact ih
    | false =>
      exact (Gives.lift _).bind fun language _ => ih.bind fun diagnostics _ => .pure _

/-- A report on exports gives what its reading says. -/
lemma gives_diagnose {exports moduleFile} :
    Gives kept (run.diagnose disk exports moduleFile)
      (reading.diagnose run disk exports moduleFile) := by
  rw [diagnose, Reading.diagnose]
  refine (Gives.lift _).bind fun file _ => (Gives.lift _).bind fun locale _ => ?_
  refine (gives_missingTests files imports _).bind fun missing _ => ?_
  exact (Gives.lift _).bind fun unchecked _ => .pure _

/-- A check of a tree gives what its reading says. -/
lemma gives_checkTree {moduleFile program} :
    Gives kept (run.checkTree disk moduleFile program)
      (reading.checkTree run disk moduleFile program) := by
  rw [checkTree, Reading.checkTree]
  exact (Gives.lift _).bind fun exports _ => gives_diagnose files imports

/-- A check of a module gives what its reading says. -/
lemma gives_checkModule {moduleFile source?} :
    Gives kept (run.checkModule disk moduleFile source?)
      (reading.checkModule run disk moduleFile source?) := by
  rw [checkModule, Reading.checkModule]
  refine (Gives.lift _).bind fun place _ => (Gives.lift _).bind fun checked _ => ?_
  cases checked with
  | false => exact .pure []
  | true =>
    refine (Gives.lift _).bind fun grammar _ => ?_
    cases source? with
    | some source =>
      exact (Gives.pure source).bind fun source _ => (gives_checkTree files imports).noting _
    | none => exact (Gives.lift _).bind fun source _ => (gives_checkTree files imports).noting _

/-- A check of an export statement gives what its reading says. -/
lemma gives_checkExport {moduleFile symbols preceding statement} :
    Gives kept (run.checkExport disk moduleFile symbols preceding statement)
      (reading.checkExport run disk moduleFile symbols preceding statement) := by
  rw [checkExport, Reading.checkExport]
  refine (Gives.lift _).bind fun place _ => (Gives.lift _).bind fun value _ => ?_
  refine (Gives.lift _).bind fun marker _ => ?_
  split
  · exact .pure []
  · exact (Gives.lift _).bind fun exports _ => gives_diagnose files imports

/-- Every operation agrees with the reading. -/
theorem gives_perform (operation : Operation) :
    Gives kept (run.perform disk operation) (reading.answer run disk operation) := by
  cases operation with
  | testFiles => exact files.map fun _ _ => .pure _
  | importFacts file => exact (imports file).map fun _ _ => .pure _
  | target testFile moduleFile => exact (Gives.lift _).map fun _ _ => .pure _
  | isCovered name moduleFile => exact (gives_isCovered files imports).map fun _ _ => .pure _
  | shouldCheck moduleFile => exact (Gives.lift _).map fun _ _ => .pure _
  | checkModule moduleFile source? =>
    exact (gives_checkModule files imports).map fun _ _ => .pure _
  | checkExport moduleFile symbols preceding statement =>
    exact (gives_checkExport files imports).map fun _ _ => .pure _

end Gives

section Moves

variable {related : Memo → Memo → Prop} (refl : ∀ memo, related memo memo)
  (trans : ∀ {a b c}, related a b → related b c → related a c)
  (files : Moves related (run.testFiles disk))
  (imports : ∀ file, Moves related (run.importFacts disk file))

include refl trans imports in
/-- The search for a covering file moves the memo as reading imports does. -/
lemma moves_coveringFile {index name moduleFile} (testFiles : List String) :
    Moves related (run.coveringFile disk index name moduleFile testFiles) := by
  induction testFiles with
  | nil => exact .pure refl none
  | cons testFile rest ih =>
    rw [coveringFile]
    refine (Moves.lift refl _).bind trans fun target => ?_
    refine (imports testFile).bind trans fun facts => ?_
    refine (Moves.lift refl _).bind trans fun found => ?_
    cases found with
    | true => exact .pure refl _
    | false => exact ih

include refl trans files imports

/-- A lookup moves the memo as reading test files does. -/
lemma moves_isCovered {name moduleFile} : Moves related (run.isCovered disk name moduleFile) := by
  rw [isCovered]
  refine (Moves.lift refl _).bind trans fun place => (Moves.lift refl _).bind trans fun index => ?_
  refine files.bind trans fun testFiles => ?_
  refine (moves_coveringFile refl trans imports testFiles).bind trans fun found => ?_
  cases found with
  | none => exact .pure refl false
  | some testFile => exact (Moves.note refl _).bind trans fun _ => .pure refl true

/-- A report on functions moves the memo as reading test files does. -/
lemma moves_missingTests {moduleFile file locale} (functions : List ExportedFunction) :
    Moves related (run.missingTests disk moduleFile file locale functions) := by
  induction functions with
  | nil => exact .pure refl []
  | cons function rest ih =>
    rw [missingTests]
    refine (moves_isCovered refl trans files imports).bind trans fun covered => ?_
    cases covered with
    | true => exact ih
    | false =>
      refine (Moves.lift refl _).bind trans fun language => ?_
      exact ih.bind trans fun diagnostics => .pure refl _

/-- A report on exports moves the memo as reading test files does. -/
lemma moves_diagnose {exports moduleFile} :
    Moves related (run.diagnose disk exports moduleFile) := by
  rw [diagnose]
  refine (Moves.lift refl _).bind trans fun file => (Moves.lift refl _).bind trans fun locale => ?_
  refine (moves_missingTests refl trans files imports _).bind trans fun missing => ?_
  exact (Moves.lift refl _).bind trans fun unchecked => .pure refl _

/-- A check of a tree moves the memo as reading test files does. -/
lemma moves_checkTree {moduleFile program} :
    Moves related (run.checkTree disk moduleFile program) := by
  rw [checkTree]
  exact (Moves.lift refl _).bind trans fun exports => moves_diagnose refl trans files imports

/-- A check of a module moves the memo as reading test files does. -/
lemma moves_checkModule {moduleFile source?} :
    Moves related (run.checkModule disk moduleFile source?) := by
  rw [checkModule]
  refine (Moves.lift refl _).bind trans fun place => ?_
  refine (Moves.lift refl _).bind trans fun checked => ?_
  cases checked with
  | false => exact .pure refl []
  | true =>
    refine (Moves.lift refl _).bind trans fun grammar => ?_
    cases source? with
    | some source =>
      refine (Moves.pure refl source).bind trans fun source => ?_
      exact (moves_checkTree refl trans files imports).noting refl trans _
    | none =>
      refine (Moves.lift refl _).bind trans fun source => ?_
      exact (moves_checkTree refl trans files imports).noting refl trans _

/-- A check of an export statement moves the memo as reading test files does. -/
lemma moves_checkExport {moduleFile symbols preceding statement} :
    Moves related (run.checkExport disk moduleFile symbols preceding statement) := by
  rw [checkExport]
  refine (Moves.lift refl _).bind trans fun place => (Moves.lift refl _).bind trans fun value => ?_
  refine (Moves.lift refl _).bind trans fun marker => ?_
  split
  · exact .pure refl []
  · exact (Moves.lift refl _).bind trans fun exports => moves_diagnose refl trans files imports

/-- Every operation moves the memo as looking for test files and reading imports do. -/
theorem moves_perform (operation : Operation) : Moves related (run.perform disk operation) := by
  cases operation with
  | testFiles => exact files.bind trans fun _ => .pure refl _
  | importFacts file => exact (imports file).bind trans fun _ => .pure refl _
  | target testFile moduleFile => exact (Moves.lift refl _).bind trans fun _ => .pure refl _
  | isCovered name moduleFile =>
    exact (moves_isCovered refl trans files imports).bind trans fun _ => .pure refl _
  | shouldCheck moduleFile => exact (Moves.lift refl _).bind trans fun _ => .pure refl _
  | checkModule moduleFile source? =>
    exact (moves_checkModule refl trans files imports).bind trans fun _ => .pure refl _
  | checkExport moduleFile symbols preceding statement =>
    exact (moves_checkExport refl trans files imports).bind trans fun _ => .pure refl _

end Moves

end Run

end ExportCover
