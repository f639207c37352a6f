import ExportCover.Proofs.Command.Selection
import ExportCover.Proofs.Run.Failure

/-!
# One run for all modules

A check goes through its modules in one run, with all that the run remembers, and stops at the first
fault. `Reading.checkAll` does the same from a reading, without a memory, and `gives_checkAll` is
the refinement between the two. So a check prints what checks of the single modules come to, each
in a run of its own (`check_refines`).
-/

namespace ExportCover

namespace Terminal

/-- A table whose rows are as long as its headings can be printed. -/
lemma exists_table (terminal : Terminal) (headings : List String) {rows : List (List Json)}
    (full : ∀ row ∈ rows, headings.length ≤ row.length) :
    ∃ text, terminal.table (headings.map .string) rows [] = .ok text := by
  have width (index : Nat) (heading : Json) (within : index < headings.length) :
      ∃ width, columnWidth rows index heading = .ok width := by
    refine Outcome.exists_bind (Outcome.exists_mapM_eq_ok fun row mem => ?_) fun cells => ⟨_, rfl⟩
    rw [List.getElem?_eq_getElem (within.trans_le (full row mem))]
    exact ⟨_, rfl⟩
  obtain ⟨widths, measured⟩ : ∃ widths, columnWidths (headings.map .string) rows = .ok widths := by
    refine Outcome.exists_mapM_eq_ok fun (heading, index) mem => width index heading ?_
    simpa using (List.mem_zipIdx mem).2.1
  obtain ⟨texts, named⟩ : ∃ texts,
      ((headings.map Json.string).take widths.length).mapM headingText = .ok texts := by
    refine Outcome.exists_mapM_eq_ok fun heading mem => ?_
    obtain ⟨text, _, rfl⟩ := List.mem_map.mp (List.mem_of_mem_take mem)
    exact ⟨text, rfl⟩
  rw [table]
  split
  · exact ⟨"", rfl⟩
  · exact ⟨_, by
      simp only [List.isEmpty_nil, if_true, measured, Outcome.ok_bind, named]
      rfl⟩

end Terminal

namespace Reading

variable {reading : Reading} {run : Run} {disk : Disk}

/-- The diagnostics of modules, one after the other. -/
def checkAll (reading : Reading) (run : Run) (disk : Disk) :
    List String → Except Fault (List Diagnostic)
  | [] => .ok []
  | file :: rest => do
    let first ← reading.checkModule run disk file none
    return first ++ (← checkAll reading run disk rest)

/-- If all modules can be checked, their reports stand one after the other. -/
lemma checkAll_eq_ok {modules : List String} {reports : String → List Diagnostic}
    (checked : ∀ file ∈ modules, reading.checkModule run disk file none = .ok (reports file)) :
    reading.checkAll run disk modules = .ok (modules.flatMap reports) := by
  induction modules with
  | nil => rfl
  | cons file rest ih =>
    obtain ⟨here, there⟩ := List.forall_mem_cons.mp checked
    rw [checkAll, here, Outcome.ok_bind, ih there]
    rfl

/-- What is found in all modules is made of a report about each of them. -/
lemma exists_of_checkAll {modules : List String} {found : List Diagnostic}
    (checked : reading.checkAll run disk modules = .ok found) :
    ∃ reports : String → List Diagnostic,
      (∀ file ∈ modules, reading.checkModule run disk file none = .ok (reports file)) ∧
        found = modules.flatMap reports := by
  have each : ∀ file ∈ modules, ∃ report, reading.checkModule run disk file none = .ok report := by
    induction modules generalizing found with
    | nil => exact nofun
    | cons file rest ih =>
      obtain ⟨first, here, checked⟩ := Outcome.bind_eq_ok.mp checked
      obtain ⟨others, there, _⟩ := Outcome.bind_eq_ok.mp checked
      exact List.forall_mem_cons.mpr ⟨⟨first, here⟩, ih there⟩
  choose! reports reported using each
  exact ⟨reports, reported, Except.ok.inj (checked.symm.trans (checkAll_eq_ok reported))⟩

end Reading

/-- A root directory whose entries mean nothing for a walk has no test files. -/
lemma Run.files_flat {run : Run} {disk : Disk} {query : Discovery.Query}
    (whole : query.suffixes.broken = false) (asked : run.query = .ok query)
    (root : Path.ofText disk.cwd run.root = [])
    (nothing : ∀ name ∈ disk.tree.namesIn [],
      Discovery.inspect disk.tree query [] name = .nothing) :
    (run.reading disk .empty).files = .ok [] := by
  have findings : Discovery.Visit.findings disk.tree query ⟨[], []⟩
      = List.replicate (disk.tree.namesIn []).length .nothing :=
    (List.map_congr_left nothing).trans List.map_const'
  have flat (n : Nat) : Discovery.directoriesOf (List.replicate n .nothing) = [] :=
    List.filterMap_replicate_of_none rfl
  have noFile (n : Nat) :
      (List.replicate n Discovery.Finding.nothing).filterMap Discovery.Finding.file? = [] :=
    List.filterMap_replicate_of_none rfl
  have listed : run.diskFiles disk = .ok [] := by
    rw [diskFiles_flat asked findings whole root rfl rfl (flat _), noFile]
    rfl
  exact listed

namespace Command

open Work

variable {setting : Setting} {arguments : List String} {run : Run} {disk : Disk}
  {reading : ExportCover.Reading} {root : String} {isVerbose asJson : Bool}
  {paths modules : List String}

/-- Checking modules in one run is checking each by itself. -/
lemma gives_checkAll (modules : List String) :
    Gives (run.Shows disk reading) (checkAll run disk modules)
      (reading.checkAll run disk modules) := by
  induction modules with
  | nil => exact .pure []
  | cons file rest ih =>
    rw [checkAll, ExportCover.Reading.checkAll]
    refine (Run.gives_checkModule Run.gives_testFiles Run.gives_importFacts).bind fun first _ => ?_
    exact ih.bind fun others _ => .pure _

/-- Before the modules are checked they are selected and the test files are counted. -/
lemma gives_prepare {files : List String} (selected : modulesToCheck run disk paths = .ok modules)
    (found : reading.files = .ok files) :
    Gives (run.Shows disk reading) (prepare run disk paths) (.ok (modules, files.length)) := by
  have gives : Gives (run.Shows disk reading) (prepare run disk paths) (do
      let modules ← modulesToCheck run disk paths
      let files ← reading.files
      return (modules, files.length)) :=
    (Gives.lift _).bind fun modules _ => Run.gives_testFiles.bind fun files _ => .pure _
  rwa [selected, Outcome.ok_bind, found] at gives

/-- What a check says on the way: notices, what it is about to do, and notices again. -/
def preamble (terminal : Terminal) (isVerbose : Bool) (modules tests : Nat)
    (first second : List Notice) : List String :=
  showNotices isVerbose first ++ statusLine terminal modules tests :: showNotices isVerbose second

/-- What a check does once its run has been set up. -/
def checkIn (setting : Setting) (run : Run) (isVerbose : Bool) (paths : List String)
    (asJson : Bool) : Except Fault Output := do
  let (prepared, first) := (prepare run setting.disk paths).runWith Memo.empty
  let (modules, tests) ← prepared
  let (outcome, second) := (checkAll run setting.disk modules).runWith first.memo
  let before := preamble setting.terminal isVerbose modules.length tests first.notices second.notices
  conclude setting.terminal asJson before outcome

/-- A check is carried out in the run with the configuration that is stored below its root. -/
lemma check_eq_checkIn (hasParser : setting.hasParser = true)
    (created : Run.create setting.disk root (some (Run.storedConfig setting.disk root)) = .ok run) :
    check setting root isVerbose paths asJson = checkIn setting run isVerbose paths asJson := by
  rw [check, hasParser, created]
  rfl

/-- A check in a run prints what checks of the single modules come to. -/
lemma checkIn_eq (typed : run.config.WellTyped)
    (selected : modulesToCheck run setting.disk paths = .ok modules) :
    ∃ tests first second, checkIn setting run isVerbose paths asJson
      = conclude setting.terminal asJson
          (preamble setting.terminal isVerbose modules.length tests first second)
          ((run.reading setting.disk .empty).checkAll run setting.disk modules) := by
  obtain ⟨files, found⟩ : ∃ files, (run.reading setting.disk .empty).files = .ok files :=
    Run.exists_files typed
  obtain ⟨prepared, shows⟩ := gives_prepare selected found ⟨.empty, []⟩ ⟨Memo.wellFormed_empty, rfl⟩
  rw [checkIn]
  simp only [exec] at prepared shows
  simp only [runWith]
  generalize Id.run (StateT.run (ExceptT.run (prepare run setting.disk paths)) ⟨.empty, []⟩)
    = result at prepared shows
  obtain ⟨_, first⟩ := result
  cases prepared
  obtain ⟨checked, _⟩ := gives_checkAll modules ⟨first.memo, []⟩ shows
  simp only [exec] at checked
  rw [← checked]
  exact ⟨files.length, first.notices, _, rfl⟩

/-- A check prints what checks of the single modules come to. -/
lemma check_eq (hasParser : setting.hasParser = true)
    (created : Run.create setting.disk root (some (Run.storedConfig setting.disk root)) = .ok run)
    (typed : run.config.WellTyped)
    (selected : modulesToCheck run setting.disk paths = .ok modules) :
    ∃ tests first second, check setting root isVerbose paths asJson
      = conclude setting.terminal asJson
          (preamble setting.terminal isVerbose modules.length tests first second)
          ((run.reading setting.disk .empty).checkAll run setting.disk modules) := by
  rw [check_eq_checkIn hasParser created]
  exact checkIn_eq typed selected

/-- Diagnostics can always be printed. -/
lemma exists_printed (terminal : Terminal) (asJson : Bool) (diagnostics : List Diagnostic) :
    ∃ out, report terminal asJson diagnostics = .ok out := by
  rw [report]
  split
  · exact ⟨_, rfl⟩
  split
  · exact ⟨_, rfl⟩
  have full : ∀ row ∈ diagnostics.map fun diagnostic =>
      [diagnostic.location, diagnostic.severity.name, diagnostic.name, diagnostic.message].map
        Json.string, 4 ≤ row.length := by
    intro row mem
    obtain ⟨diagnostic, _, rfl⟩ := List.mem_map.mp mem
    exact Nat.le_refl 4
  obtain ⟨text, printed⟩ := terminal.exists_table ["Location", "Severity", "Name", "Message"] full
  rw [tableReport, printed]
  exact ⟨_, rfl⟩

/-- A run that finds no configuration below its root has the default one. -/
lemma create_default {disk : Disk} {root : String} (rooted : Run.rootOf disk root = .ok root)
    (absent : disk.tree.read (disk.names root ++ Config.fileNames) = .error .noEntry) :
    Run.create disk root (some (Run.storedConfig disk root)) = .ok ⟨root, Config.default⟩ := by
  have filled : Config.fill [] = Config.default := by
    simp [Config.fill, Config.default, Config.schema, Config.get?, Config.set]
  rw [Run.create, rooted, Run.storedConfig, Config.load, Config.stored?, absent, Config.fieldsOf,
    filled]
  · rfl
  · nofun

/-- A command line asks for a check, in a run with a root that can be followed and a well-typed
configuration. -/
structure Asks (setting : Setting) (arguments : List String) (run : Run) (isVerbose : Bool)
    (paths : List String) (asJson : Bool) : Prop where
  hasParser : setting.hasParser = true
  started : ∃ root? root, readInvocation arguments = .ok ⟨root?, isVerbose, .check paths asJson⟩ ∧
    rootOf setting.disk root? = .ok root ∧
    Run.create setting.disk root (some (Run.storedConfig setting.disk root)) = .ok run
  typed : run.config.WellTyped

/-- A command line that asks for a check prints what the check prints. -/
lemma Asks.exists_output (asks : Asks setting arguments run isVerbose paths asJson) :
    ∃ root, Run.create setting.disk root (some (Run.storedConfig setting.disk root)) = .ok run ∧
      (Command.run setting arguments).output = check setting root isVerbose paths asJson := by
  obtain ⟨root?, root, read, rooted, created⟩ := asks.started
  refine ⟨root, created, ?_⟩
  simp only [Command.run, read, perform, rooted]

/-- What is printed is what checks of the single modules come to. -/
lemma Asks.output_eq (asks : Asks setting arguments run isVerbose paths asJson)
    (selected : modulesToCheck run setting.disk paths = .ok modules) :
    ∃ tests first second, (Command.run setting arguments).output
      = conclude setting.terminal asJson
          (preamble setting.terminal isVerbose modules.length tests first second)
          ((run.reading setting.disk .empty).checkAll run setting.disk modules) := by
  obtain ⟨root, created, output⟩ := asks.exists_output
  rw [output]
  exact check_eq asks.hasParser created asks.typed selected

/-- Where all modules are checked without a fault their reports are printed, sorted. -/
lemma Asks.output_of_reports (asks : Asks setting arguments run isVerbose paths asJson)
    (selected : modulesToCheck run setting.disk paths = .ok modules)
    {reports : String → List Diagnostic}
    (reported : ∀ file ∈ modules,
      (run.reading setting.disk .empty).checkModule run setting.disk file none
        = .ok (reports file)) :
    ∃ tests first second out,
      report setting.terminal asJson (Diagnostic.sort (modules.flatMap reports)) = .ok out ∧
      (Command.run setting arguments).output = .ok
        ⟨exitCode (Diagnostic.sort (modules.flatMap reports)), out,
          lines (preamble setting.terminal isVerbose modules.length tests first second)⟩ := by
  obtain ⟨tests, first, second, output⟩ := asks.output_eq selected
  obtain ⟨out, printed⟩ := exists_printed setting.terminal asJson
    (Diagnostic.sort (modules.flatMap reports))
  refine ⟨tests, first, second, out, printed, ?_⟩
  rw [output, ExportCover.Reading.checkAll_eq_ok reported, conclude, printed, Outcome.ok_bind]
  rfl

/-- A fresh run answers with the report of its reading. -/
lemma ask_eq_ok {run : Run} {disk : Disk} {file : String} {report : List Diagnostic} :
    run.ask disk .empty (.checkModule file none) = .ok (.diagnostics report) ↔
      (run.reading disk .empty).checkModule run disk file none = .ok report := by
  rw [Run.ask_eq_answer Memo.wellFormed_empty, ExportCover.Reading.answer, Outcome.map_eq_ok]
  simp

/-- The exit code says whether one of the diagnostics is an error. -/
lemma exitCode_sort (found : List Diagnostic) : exitCode (Diagnostic.sort found)
    = if ∃ diagnostic ∈ found, diagnostic.severity = .error then 1 else 0 := by
  have same : (Diagnostic.sort found).any Diagnostic.isError = true
      ↔ ∃ diagnostic ∈ found, diagnostic.severity = .error := by
    simp [Diagnostic.sort, Diagnostic.isError, List.any_eq_true]
  rw [exitCode]
  simp only [same]

/-- A project of two modules: one exports a function that no test imports, the other exports
nothing. -/
def pairDisk : Disk :=
  ⟨⟨[(["a.ts"], .file (Text.encode "export function f() {}")), (["b.ts"], .file [])]⟩, []⟩

/-- A disk is checked with plain output. -/
def plainly (disk : Disk) : Setting := ⟨disk, ⟨false, false⟩, true⟩

/-- A run from the root of a disk, with the default configuration. -/
def rootRun : Run := ⟨"/", Config.default⟩

/-- A check in the root directory of a disk without a stored configuration. -/
lemma asks_root {disk : Disk} {arguments paths : List String}
    (read : readInvocation arguments = .ok ⟨none, false, .check paths true⟩)
    (here : rootOf disk none = .ok "/") (rooted : Run.rootOf disk "/" = .ok "/")
    (absent : disk.tree.read (disk.names "/" ++ Config.fileNames) = .error .noEntry) :
    Asks (plainly disk) arguments rootRun false paths true :=
  ⟨rfl, ⟨none, "/", read, here, create_default rooted absent⟩, by decide +kernel⟩

/-- A disk none of whose entries means anything for a walk in the root directory has no tests. -/
lemma files_root {disk : Disk} (nothing : ∀ listed ∈ disk.tree.entries, ∀ name ∈ listed.1.getLast?,
      Discovery.inspect disk.tree Discovery.defaultQuery [] name = .nothing) :
    (rootRun.reading disk .empty).files = .ok [] := by
  have query : rootRun.query = .ok Discovery.defaultQuery := rfl
  have root : Path.names "/" = [] := rfl
  refine Run.files_flat rfl query root fun name mem => ?_
  rw [FileTree.namesIn, List.mem_mergeSort] at mem
  obtain ⟨⟨path, entry⟩, among, named⟩ := List.mem_filterMap.mp mem
  dsimp only at named
  split at named
  next => exact nothing _ among name named
  next => cases named

/-- The project with the pair of modules has no test files. -/
lemma files_pair : (rootRun.reading pairDisk .empty).files = .ok [] :=
  files_root (by decide +kernel)

/-- The second module is given twice, and before the first one. -/
lemma asks_pair : Asks (plainly pairDisk) ["check", "--json", "b.ts", "a.ts", "./b.ts"] rootRun
    false ["b.ts", "a.ts", "./b.ts"] true :=
  asks_root (by decide +kernel) rfl rfl rfl

/-- Both modules of the pair are selected, each once and in order. -/
lemma selected_pair : modulesToCheck rootRun pairDisk ["b.ts", "a.ts", "./b.ts"]
    = .ok ["/a.ts", "/b.ts"] := by
  have typed : rootRun.config.WellTyped := by decide +kernel
  have alone (path name : String)
      (resolved : pairDisk.resolve (Disk.absolute "/" path) = .ok [name])
      (isSource : Discovery.sourcesAt pairDisk.tree [name] Specifier.defaultExtensions
        Discovery.defaultExclusions = [[name]]) :
      sourcesUnder pairDisk rootRun.config path = .ok [Path.render [name]] := by
    refine (Discovery.sourceFiles_eq resolved Specifier.defaultExtensions
      Discovery.defaultExclusions).trans ?_
    rw [isSource]
    exact congrArg Except.ok (List.mergeSort_singleton _)
  have first : sourcesUnder pairDisk rootRun.config "a.ts" = .ok ["/a.ts"] :=
    alone "a.ts" "a.ts" rfl rfl
  have second : sourcesUnder pairDisk rootRun.config "b.ts" = .ok ["/b.ts"] :=
    alone "b.ts" "b.ts" rfl rfl
  have third : sourcesUnder pairDisk rootRun.config "./b.ts" = .ok ["/b.ts"] :=
    alone "./b.ts" "b.ts" rfl rfl
  have chosen : selectFiles pairDisk rootRun.root rootRun.config ["b.ts", "a.ts", "./b.ts"]
      = .ok ["/a.ts", "/b.ts"] := by
    rw [selectFiles_eq typed]
    simp only [startsOf, List.isEmpty_cons, Bool.false_eq_true, if_false, List.mapM_cons, first,
      second, third, Outcome.ok_bind, List.mapM_nil, Outcome.pure_eq]
    have once : [["/b.ts"], ["/a.ts"], ["/b.ts"]].flatten.eraseDups = ["/b.ts", "/a.ts"] := by
      decide
    rw [once]
    simp [List.mergeSort, List.MergeSort.Internal.splitInTwo]
  rw [modulesToCheck, chosen, Outcome.ok_bind]
  decide +kernel

/-- The only error in the pair. -/
def pairError : Diagnostic :=
  Diagnostic.missingTest ⟨"f", .namedFunction, 1, 1⟩ "a.ts" "en"

/-- One of the two modules has an error. -/
lemma ask_pair : ∀ file ∈ ["/a.ts", "/b.ts"],
    rootRun.ask pairDisk .empty (.checkModule file none)
      = .ok (.diagnostics (if file = "/a.ts" then [pairError] else [])) := by
  have reading : rootRun.reading pairDisk .empty
      = ⟨.ok [], (rootRun.reading pairDisk .empty).imports⟩ := by
    rw [← files_pair]
  intro file mem
  rw [ask_eq_ok, reading]
  revert file mem
  decide +kernel

end Command

end ExportCover
