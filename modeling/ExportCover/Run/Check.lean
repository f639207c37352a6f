import ExportCover.Path.Glob
import ExportCover.Report.Diagnostic
import ExportCover.Run.Coverage

/-!
# Checking modules

A module is checked by collecting its exported functions and reporting those that are not covered.
Test files and modules that an ignore pattern matches are not checked.
-/

namespace ExportCover.Run

/-- The module is checked: it is no test file and matches no ignore pattern. -/
def shouldCheck (run : Run) (disk : Disk) (moduleFile : String) : Except Fault Bool := do
  if ← Discovery.isTestFile moduleFile (← run.config.listing "test_suffixes") then return false
  let shown ← disk.relativeTo run.root moduleFile
  let isIgnored ← (← run.config.listing "ignore").any fun pattern => Glob.admits pattern shown
  return !isIgnored

/-- The language that reports are written in. A value that can name no language is a fault. -/
def localeOf (value : Json) : Except Fault String :=
  if value.isScalar then .ok (value.text?.getD "") else .error .illTyped

/-- The functions that no test file covers, as diagnostics. -/
def missingTests (run : Run) (disk : Disk) (moduleFile file : String) (locale : Json) :
    List ExportedFunction → Work (List Diagnostic)
  | [] => return []
  | function :: rest => do
    if ← run.isCovered disk function.name moduleFile then
      missingTests run disk moduleFile file locale rest
    else
      let diagnostic := Diagnostic.missingTest function file (← localeOf locale)
      return diagnostic :: (← missingTests run disk moduleFile file locale rest)

/-- The exports that are not checked, as diagnostics, if the configuration asks for them. -/
def uncheckedExports (run : Run) (file : String) (locale : Json) (unchecked : List UncheckedExport) :
    Except Fault (List Diagnostic) := do
  if ← run.config.isOn "report_unchecked_exports" then
    unchecked.mapM fun exported => do return Diagnostic.unchecked exported file (← localeOf locale)
  else return []

/-- The diagnostics about exports of a module. -/
def diagnose (run : Run) (disk : Disk) (exports : Exports) (moduleFile : String) :
    Work (List Diagnostic) := do
  let file ← disk.relativeTo run.root moduleFile
  let locale ← run.config.get "locale"
  let missing ← run.missingTests disk moduleFile file locale exports.functions
  return missing ++ (← run.uncheckedExports file locale exports.unchecked)

/-- The text that exempts an export, as a configuration gives it. A value that is no text exempts
nothing as long as no comment has to be searched for it. -/
def markerFor (value : Json) (hasComment : Bool) : Except Fault String :=
  match value with
  | .string marker => .ok marker
  | _ => if value.isTruthy && hasComment then .error .illTyped else .ok ""

/-- The exports of a program under the marker of a configuration. -/
def exportsOf (run : Run) (program : Node) : Except Fault Exports := do
  let hasComment := program.placedExports.any fun (preceding, statement) =>
    (Node.commentAbove? preceding statement).isSome
  program.exports (← markerFor (← run.config.get "ignore_marker") hasComment)

/-- The diagnostics about the tree of a module at a canonical path. -/
def checkTree (run : Run) (disk : Disk) (moduleFile : String) (program : Node) :
    Work (List Diagnostic) := do
  run.diagnose disk (← run.exportsOf program) moduleFile

/-- The diagnostics about a module. Its text is read from the disk unless it is given. -/
def checkModule (run : Run) (disk : Disk) (moduleFile : String) (source? : Option Bytes) :
    Work (List Diagnostic) := do
  let place := Path.render (← disk.resolveFrom run.root moduleFile)
  if !(← run.shouldCheck disk place) then return []
  let grammar ← Grammar.ofPath place
  let source ← match source? with
    | some source => pure source
    | none => disk.read place
  let diagnostics ← run.checkTree disk place (Program.parse grammar source).root
  Work.note (.debug coverageOrigin
    (place ++ ": " ++ toString diagnostics.length ++ " diagnostic(s)"))
  return diagnostics

/-- The diagnostics about one export statement of a module. `preceding` are the siblings before the
statement, the nearest first. -/
def checkExport (run : Run) (disk : Disk) (moduleFile : String) (symbols : SymbolTable)
    (preceding : List Node) (statement : Node) : Work (List Diagnostic) := do
  let place := Path.render (← disk.resolveFrom run.root moduleFile)
  let hasComment := (Node.commentAbove? preceding statement).isSome
  let marker ← markerFor (← run.config.get "ignore_marker") hasComment
  if statement.isMarked marker preceding then return []
  run.diagnose disk (← statement.exportsOfStatement symbols) place

/-- The diagnostics about a module in a run of its own, with the configuration that is stored below
the root. -/
def checkFresh (disk : Disk) (root moduleFile : String) : Work (List Diagnostic) := do
  let run ← Run.create disk root none
  run.checkModule disk moduleFile none

end ExportCover.Run
