import ExportCover.Run.Check

/-!
# Operations of a run

What can be asked of a run, as data, and the answers. Every operation sees the disk as it is at that
moment and the memo that the operations before it left.
-/

namespace ExportCover

/-- A question to a run. -/
inductive Operation where
  | testFiles
  | importFacts (file : String)
  | target (testFile moduleFile : String)
  | isCovered (name moduleFile : String)
  | shouldCheck (moduleFile : String)
  /-- The diagnostics about a module; its text may be given. -/
  | checkModule (moduleFile : String) (source? : Option Bytes)
  /-- The diagnostics about one export statement, given with the siblings before it. -/
  | checkExport (moduleFile : String) (symbols : SymbolTable) (preceding : List Node)
      (statement : Node)
deriving Repr

/-- An answer of a run. -/
inductive Answer where
  | files (files : List String)
  | facts (facts : List ImportFact)
  | specifier (text : String)
  | verdict (holds : Bool)
  | diagnostics (diagnostics : List Diagnostic)
deriving DecidableEq, Repr

namespace Run

/-- The answer of a run to a question. -/
def perform (run : Run) (disk : Disk) : Operation → Work Answer
  | .testFiles => do return .files (← run.testFiles disk)
  | .importFacts file => do return .facts (← run.importFacts disk file)
  | .target testFile moduleFile => do return .specifier (← run.target disk testFile moduleFile)
  | .isCovered name moduleFile => do return .verdict (← run.isCovered disk name moduleFile)
  | .shouldCheck moduleFile => do return .verdict (← run.shouldCheck disk moduleFile)
  | .checkModule moduleFile source? => do
    return .diagnostics (← run.checkModule disk moduleFile source?)
  | .checkExport moduleFile symbols preceding statement => do
    return .diagnostics (← run.checkExport disk moduleFile symbols preceding statement)

end Run

end ExportCover
