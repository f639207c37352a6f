import ExportCover.Command.Invocation
import ExportCover.Report.Terminal
import ExportCover.Run.Check

/-!
# Carrying out a command line

A command line is carried out on a disk and gives an exit code, what is printed and the file tree
afterwards. The check selects modules, looks for test files, says what it is about to do and then
checks the modules one after the other in one run. Faults that the check reports end it with the
exit code two; any other fault escapes.
-/

namespace ExportCover.Command

/-- What a command line leaves: its exit code and what it prints. -/
structure Output where
  exit : Nat
  out : String
  err : String
deriving DecidableEq, Repr

/-- What the program runs in. -/
structure Setting where
  disk : Disk
  terminal : Terminal
  /-- Source texts can be parsed. -/
  hasParser : Bool
deriving DecidableEq, Repr

/-- The outcome of a command line and the file tree after it. -/
structure Outcome where
  output : Except Fault Output
  tree : FileTree
deriving Repr

/-- Lines of text. -/
def lines (texts : List String) : String :=
  String.join (texts.map (· ++ "\n"))

/-- The notices that are printed: warnings by their texts alone, or everything. -/
def showNotices (isVerbose : Bool) (notices : List Notice) : List String :=
  if isVerbose then notices.map Notice.describe
  else (notices.filter Notice.isWarning).map (·.text)

/-- The line about an error. -/
def errorLine (terminal : Terminal) (message : String) : String :=
  terminal.colorize ("  Error: " ++ message) "red"

/-- The modules that paths select, each once, in the order of their texts. Without paths all modules
under the root are selected. -/
def selectFiles (disk : Disk) (root : String) (config : Config) (paths : List String) :
    Except Fault (List String) := do
  let exclusions ← config.exclusions
  let starts := if paths.isEmpty then [root] else paths
  let found ← starts.mapM fun path => do
    let extensions ← config.get "extensions"
    Discovery.sourceFiles disk (Disk.absolute (Path.render disk.cwd) path)
      (Listing.ofValue extensions) exclusions
  return found.flatten.eraseDups.mergeSort fun a b => a ≤ b

/-- The selected modules that are checked. -/
def modulesToCheck (run : Run) (disk : Disk) (paths : List String) : Except Fault (List String) := do
  (← selectFiles disk run.root run.config paths).filterM (run.shouldCheck disk)

/-- The diagnostics of modules, one after the other in one run. -/
def checkAll (run : Run) (disk : Disk) : List String → Work (List Diagnostic)
  | [] => return []
  | file :: rest => do
    let first ← run.checkModule disk file none
    return first ++ (← checkAll run disk rest)

/-- The status line of a check. -/
def statusLine (terminal : Terminal) (modules tests : Nat) : String :=
  terminal.colorize ("Checking " ++ toString modules ++ " module(s) against " ++ toString tests
    ++ " test file(s)...") "dim"

/-- The report on diagnostics as a table. -/
def tableReport (terminal : Terminal) (diagnostics : List Diagnostic) : Except Fault String := do
  let title := terminal.colorize
    ("\nUntested exports: " ++ toString diagnostics.length ++ "\n") "bold"
  let headings := ["Location", "Severity", "Name", "Message"].map Json.string
  let rows := diagnostics.map fun diagnostic =>
    [diagnostic.location, diagnostic.severity.name, diagnostic.name, diagnostic.message].map
      Json.string
  return title ++ "\n" ++ (← terminal.table headings rows [])

/-- The report on diagnostics. -/
def report (terminal : Terminal) (asJson : Bool) (diagnostics : List Diagnostic) :
    Except Fault String :=
  if asJson then .ok (Json.render (Diagnostic.report diagnostics) ++ "\n")
  else if diagnostics.isEmpty then
    .ok (terminal.colorize "Every exported function is imported by a test." "green" ++ "\n")
  else tableReport terminal diagnostics

/-- The exit code of a check. -/
def exitCode (diagnostics : List Diagnostic) : Nat :=
  if diagnostics.any Diagnostic.isError then 1 else 0

/-- What is printed once the modules have been checked. -/
def conclude (terminal : Terminal) (asJson : Bool) (before : List String)
    (outcome : Except Fault (List Diagnostic)) : Except Fault Output :=
  match outcome with
  | .ok found => do
    let diagnostics := Diagnostic.sort found
    return ⟨exitCode diagnostics, ← report terminal asJson diagnostics, lines before⟩
  | .error fault =>
    if fault.isReported then
      .ok ⟨2, "", lines (before ++ [errorLine terminal fault.message])⟩
    else .error fault

/-- What a run is about to check: the modules and the number of test files. -/
def prepare (run : Run) (disk : Disk) (paths : List String) : Work (List String × Nat) := do
  let modules ← modulesToCheck run disk paths
  return (modules, (← run.testFiles disk).length)

/-- The check. -/
def check (setting : Setting) (root : String) (isVerbose : Bool) (paths : List String)
    (asJson : Bool) : Except Fault Output := do
  if !setting.hasParser then
    return ⟨2, "", lines [errorLine setting.terminal
      "tree-sitter-language-pack is not installed (pip install tree-sitter-language-pack)"]⟩
  let run ← Run.create setting.disk root (some (Run.storedConfig setting.disk root))
  let (prepared, first) := (prepare run setting.disk paths).runWith Memo.empty
  let (modules, tests) ← prepared
  let (outcome, second) := (checkAll run setting.disk modules).runWith first.memo
  let before := showNotices isVerbose first.notices
    ++ statusLine setting.terminal modules.length tests :: showNotices isVerbose second.notices
  conclude setting.terminal asJson before outcome

/-- A change of the stored configuration. -/
def editConfig (setting : Setting) (root : String) (edit : ConfigEdit) : Outcome :=
  let disk := setting.disk
  let path := disk.names root ++ Config.fileNames
  match (Config.load disk.tree path).apply edit with
  | .error (.unknownKey key) => refuse (.unknownKey key)
  | .error (.notSwitch key raw) => refuse (.notSwitch key raw)
  | .error fault => ⟨.error fault, disk.tree⟩
  | .ok config =>
    let edited := config.save disk.tree path
    match edited.error with
    | some error => ⟨.error (.system error (Path.render path)), edited.tree⟩
    | none =>
      let message := "Updated " ++ edit.key ++ " in " ++ Path.render path
      ⟨.ok ⟨0, setting.terminal.colorize message "green" ++ "\n", ""⟩, edited.tree⟩
where
  /-- The edit is refused and its user is told why. -/
  refuse (fault : Fault) : Outcome :=
    ⟨.ok ⟨2, "", lines [errorLine setting.terminal fault.message]⟩, setting.disk.tree⟩

/-- The root of an invocation: the one that was given, or the working directory. -/
def rootOf (disk : Disk) (root : Option String) : Except Fault String :=
  match root with
  | none => .ok (Path.render disk.cwd)
  | some "" => .ok (Path.render disk.cwd)
  | some text => do return Path.render (← disk.resolve text)

/-- Carries out an invocation. -/
def perform (setting : Setting) (invocation : Invocation) : Outcome :=
  match rootOf setting.disk invocation.root with
  | .error fault => ⟨.error fault, setting.disk.tree⟩
  | .ok root =>
    match invocation.task with
    | .check paths asJson =>
      ⟨check setting root invocation.isVerbose paths asJson, setting.disk.tree⟩
    | .showConfig =>
      let config := Run.storedConfig setting.disk root
      ⟨.ok ⟨0, Json.render (.object config) ++ "\n", ""⟩, setting.disk.tree⟩
    | .editConfig edit => editConfig setting root edit

/-- Carries out a command line. -/
def run (setting : Setting) (arguments : List String) : Outcome :=
  match readInvocation arguments with
  | .ok invocation => perform setting invocation
  | .error (.help program) =>
    ⟨.ok ⟨0, lines [(Refusal.help program).line], ""⟩, setting.disk.tree⟩
  | .error refusal => ⟨.ok ⟨2, "", lines [refusal.line]⟩, setting.disk.tree⟩

end ExportCover.Command
