import ExportCover.Proofs.Discovery.Growth
import ExportCover.Proofs.Run.Failure

/-!
# Checks on growing trees

Files and directories are added to a disk. A check of a module then finds the test files that it
found before, perhaps among others, and reads the same imports in them, so that no function is
reported that was not reported before (`errors_of_grows`). Two things must not happen: the root and
the module must not turn into links that lead back to themselves, and no directory may be reached
along another path on which the operating system gives up (`errors_appear`).
-/

namespace ExportCover

namespace Disk.GrowsTo

variable {disk disk' : Disk} {root text shown : String} {base place : Path}

/-- A path is shown the same on a larger disk. -/
lemma relativeTo_eq_ok (grows : disk.GrowsTo disk')
    (relative : disk.relativeTo root text = .ok shown)
    (rooted : disk'.resolve root = .ok base) (resolved : disk'.resolve text = .ok place) :
    disk'.relativeTo root text = .ok shown := by
  obtain ⟨base', rooted', relative⟩ := Outcome.bind_eq_ok.mp relative
  obtain ⟨place', resolved', relative⟩ := Outcome.bind_eq_ok.mp relative
  cases grows.resolve_eq rooted' rooted
  cases grows.resolve_eq resolved' resolved
  exact Outcome.bind_eq_ok.mpr ⟨_, rooted, Outcome.bind_eq_ok.mpr ⟨_, resolved, relative⟩⟩

end Disk.GrowsTo

namespace Run

variable {run : Run} {disk disk' : Disk}

/-- What a file imports; nothing if it cannot be read. -/
def factsIn (disk : Disk) (file : String) : List ImportFact :=
  (parsedImports disk file).toOption.getD []

/-- A fresh run reads everything from the disk. -/
lemma reading_empty : run.reading disk .empty = ⟨run.diskFiles disk, run.diskImports disk⟩ :=
  rfl

/-- A run that skips files that it cannot read reads the imports of every file. -/
lemma diskImports_eq (lenient : run.config.isOn "fail_on_unreadable" = .ok false) (file : String) :
    run.diskImports disk file = .ok (factsIn disk file) := by
  cases parsed : parsedImports disk file with
  | ok facts =>
    simp only [diskImports, factsIn, parsed]
    rfl
  | error fault =>
    have unreadable := isUnreadable_of_parsedImports parsed
    simp only [diskImports, factsIn, parsed, tryCatch, tryCatchThe, MonadExceptOf.tryCatch,
      Except.tryCatch, unreadable, if_true, excuse, lenient, Outcome.ok_bind]
    rfl

/-- The imports of a file are the same on a larger disk. -/
lemma factsIn_eq (grows : disk.GrowsTo disk') {file : Path} {content : Bytes}
    (standing : disk.tree.entry? file = some (.file content)) :
    factsIn disk' (Path.render file) = factsIn disk (Path.render file) := by
  have read := (Disk.read_home grows.proper standing).1
  have read' := (Disk.read_home grows.proper' (grows.tree.kept standing)).1
  rw [factsIn, factsIn, parsedImports, parsedImports, read, read']

/-- A module is checked on a larger disk if it was before. -/
lemma shouldCheck_eq_ok (grows : disk.GrowsTo disk') {file : String} {isChecked : Bool}
    {base place : Path} (passes : run.shouldCheck disk file = .ok isChecked)
    (rooted : disk'.resolve run.root = .ok base) (resolved : disk'.resolve file = .ok place) :
    run.shouldCheck disk' file = .ok isChecked := by
  rw [shouldCheck] at passes ⊢
  obtain ⟨suffixes, listed, passes⟩ := Outcome.bind_eq_ok.mp passes
  obtain ⟨isTest, tested, passes⟩ := Outcome.bind_eq_ok.mp passes
  rw [listed, Outcome.ok_bind, tested, Outcome.ok_bind]
  cases isTest with
  | true =>
    rw [if_pos rfl] at passes ⊢
    exact passes
  | false =>
    rw [if_neg Bool.false_ne_true] at passes ⊢
    obtain ⟨shown, relative, passes⟩ := Outcome.bind_eq_ok.mp passes
    rw [grows.relativeTo_eq_ok relative rooted resolved, Outcome.ok_bind]
    exact passes

end Run

namespace Reading

variable {reading reading' : Reading} {run : Run} {disk disk' : Disk} {moduleFile file : String}

/-- Where every function that was covered still is, no function is reported that was not before. -/
lemma missingTests_sublist {locale : Json} {functions : List ExportedFunction}
    {errors : List Diagnostic}
    (reported : reading.missingTests run disk moduleFile file locale functions = .ok errors)
    (covered : ∀ name isCovered, reading.isCovered run disk name moduleFile = .ok isCovered →
      ∃ isCovered', reading'.isCovered run disk' name moduleFile = .ok isCovered' ∧
        (isCovered = true → isCovered' = true)) :
    ∃ errors', reading'.missingTests run disk' moduleFile file locale functions = .ok errors' ∧
      errors'.Sublist errors := by
  induction functions generalizing errors with
  | nil => exact ⟨[], rfl, List.nil_sublist errors⟩
  | cons function rest ih =>
    obtain ⟨isCovered, looked, reported⟩ := Outcome.bind_eq_ok.mp reported
    obtain ⟨isCovered', looked', stays⟩ := covered function.name isCovered looked
    rw [missingTests, looked', Outcome.ok_bind]
    cases isCovered with
    | true =>
      cases stays rfl
      exact ih reported
    | false =>
      obtain ⟨language, speaks, reported⟩ := Outcome.bind_eq_ok.mp reported
      obtain ⟨others, reportedRest, done⟩ := Outcome.bind_eq_ok.mp reported
      cases done
      obtain ⟨others', reportedRest', sublist⟩ := ih reportedRest
      -- A function that was reported may be covered now, and then its error is left out.
      cases isCovered' with
      | true => exact ⟨others', reportedRest', sublist.cons _⟩
      | false =>
        refine ⟨_ :: others', ?_, sublist.cons_cons _⟩
        rw [if_neg (by simp), speaks, Outcome.ok_bind, reportedRest']
        rfl

end Reading

namespace Run

section Growing

variable {run : Run} {disk disk' : Disk} {suffixes extensions : List String} {indexName : String}
  (hasSuffixes : run.config.get "test_suffixes" = .ok (.texts suffixes))
  (hasExtensions : run.config.get "extensions" = .ok (.texts extensions))
  (hasIndex : run.config.get "index_name" = .ok (.string indexName))
  (lenient : run.config.isOn "fail_on_unreadable" = .ok false)
  (grows : disk.GrowsTo disk') (normal : Path.IsNormal disk.cwd)
  (followed : ∀ query, run.query = .ok query →
    Discovery.StaysFollowed disk.tree disk'.tree query (Path.ofText disk.cwd run.root))

include hasSuffixes in
/-- The endings of a query can all be gone through. -/
lemma whole_of_query {query : Discovery.Query} (asked : run.query = .ok query) :
    query.suffixes.broken = false := by
  rw [Run.query, hasSuffixes, Outcome.ok_bind] at asked
  obtain ⟨exclusions, _, asked⟩ := Outcome.bind_eq_ok.mp asked
  rw [Listing.ofValue_texts] at asked
  cases asked
  rfl

/-- The test files of a disk: those of the directories that a walk lists. -/
def filesIn (run : Run) (disk : Disk) (query : Discovery.Query) : List Path :=
  (Discovery.visits disk.tree query [] [Path.ofText disk.cwd run.root]).flatMap
    (·.files disk.tree query)

include hasSuffixes hasExtensions hasIndex lenient in
/-- A run that skips files that it cannot read covers what one of the test files brings in. -/
lemma isCovered_eq_any {query : Discovery.Query} (asked : run.query = .ok query)
    {moduleFile : String} {place : Path}
    (resolved : disk.resolveFrom run.root moduleFile = .ok place) (name : String) :
    (run.reading disk .empty).isCovered run disk name moduleFile
      = .ok (((run.filesIn disk query).map Path.render).any fun testFile =>
          (factsIn disk testFile).any (·.brings indexName
            (Specifier.spelling extensions indexName testFile (Path.render place)) name)) := by
  have found : run.diskFiles disk = .ok ((run.filesIn disk query).map Path.render) := by
    rw [diskFiles, asked, Outcome.ok_bind,
      Discovery.testFiles_eq (whole_of_query hasSuffixes asked)]
    rfl
  have rooted : ∀ testFile ∈ (run.filesIn disk query).map Path.render, Path.isAbsolute testFile :=
    fun testFile mem => isAbsolute_of_mem_diskFiles found mem
  rw [reading_empty]
  refine Reading.isCovered_eq hasExtensions hasIndex resolved ?_ rooted ?_ name
  · exact found
  · exact fun testFile _ => diskImports_eq lenient testFile

include hasSuffixes grows normal followed in
/-- A test file is still found and imports what it did. -/
lemma mem_filesIn_grows {query : Discovery.Query} (asked : run.query = .ok query) {file : Path}
    (mem : file ∈ run.filesIn disk query) : file ∈ run.filesIn disk' query ∧
      factsIn disk' (Path.render file) = factsIn disk (Path.render file) := by
  have plain : "." ∉ Path.ofText disk.cwd run.root :=
    Path.here_notMem_ofText (fun mem => (normal "." mem).1.ne_here rfl) run.root
  obtain ⟨mem', content, standing⟩ := (followed query asked).mem_files grows.tree grows.proper
    grows.proper' (whole_of_query hasSuffixes asked) plain mem
  refine ⟨?_, factsIn_eq grows standing⟩
  rw [filesIn, grows.cwd]
  exact mem'

include hasSuffixes hasExtensions hasIndex lenient grows normal followed

/-- On a larger disk a lookup still succeeds, and what was covered is covered. -/
lemma isCovered_grows {moduleFile name : String} {place : Path} {isCovered : Bool}
    (looked : (run.reading disk .empty).isCovered run disk name moduleFile = .ok isCovered)
    (resolved' : disk'.resolveFrom run.root moduleFile = .ok place) :
    ∃ isCovered', (run.reading disk' .empty).isCovered run disk' name moduleFile
        = .ok isCovered' ∧ (isCovered = true → isCovered' = true) := by
  obtain ⟨_, resolved, searched⟩ := Outcome.bind_eq_ok.mp looked
  obtain ⟨index, _, searched⟩ := Outcome.bind_eq_ok.mp searched
  obtain ⟨files, found, _⟩ := Outcome.bind_eq_ok.mp searched
  obtain ⟨query, asked, _⟩ := Outcome.bind_eq_ok.mp found
  cases grows.resolve_eq resolved resolved'
  rw [isCovered_eq_any hasSuffixes hasExtensions hasIndex lenient asked resolved] at looked
  cases looked
  refine ⟨_, isCovered_eq_any hasSuffixes hasExtensions hasIndex lenient asked resolved' name, ?_⟩
  simp only [List.any_map, List.any_eq_true, Function.comp_apply]
  rintro ⟨file, mem, fact, imported, brings⟩
  obtain ⟨mem', same⟩ := mem_filesIn_grows hasSuffixes grows normal followed asked mem
  rw [← same] at imported
  exact ⟨file, mem', fact, imported, brings⟩

/-- A report about exports only gets shorter. -/
lemma diagnose_grows {exports : Exports} {report : List Diagnostic} {base place home : Path}
    (reported : (run.reading disk .empty).diagnose run disk exports (Path.render place)
      = .ok report)
    (rooted : disk'.resolve run.root = .ok base)
    (again : disk'.resolve (Path.render place) = .ok home) :
    ∃ report', (run.reading disk' .empty).diagnose run disk' exports (Path.render place)
        = .ok report' ∧ report'.Sublist report := by
  have again' : disk'.resolveFrom run.root (Path.render place) = .ok home :=
    (disk'.resolveFrom_render _ _).trans again
  obtain ⟨shown, relative, reported⟩ := Outcome.bind_eq_ok.mp reported
  obtain ⟨locale, got, reported⟩ := Outcome.bind_eq_ok.mp reported
  obtain ⟨missing, missed, reported⟩ := Outcome.bind_eq_ok.mp reported
  obtain ⟨warnings, warned, done⟩ := Outcome.bind_eq_ok.mp reported
  cases done
  obtain ⟨missing', missed', sublist⟩ := Reading.missingTests_sublist missed
    fun name isCovered looked => isCovered_grows hasSuffixes hasExtensions hasIndex lenient grows
      normal followed looked again'
  have relative' := grows.relativeTo_eq_ok relative rooted again
  refine ⟨missing' ++ warnings, ?_, sublist.append_right warnings⟩
  rw [Reading.diagnose, relative', Outcome.ok_bind, got, Outcome.ok_bind, missed', Outcome.ok_bind,
    warned]
  rfl

/-- Adding files and directories never creates an error. Where the root and the module can still be
followed, a check of the module gives a report too, and nothing new is in it. -/
theorem errors_of_grows {moduleFile : String} {source? : Option Bytes} {report : List Diagnostic}
    {base place home : Path}
    (checked : run.ask disk .empty (.checkModule moduleFile source?) = .ok (.diagnostics report))
    (rooted : disk'.resolve run.root = .ok base)
    (resolved : disk'.resolveFrom run.root moduleFile = .ok place)
    (again : disk'.resolve (Path.render place) = .ok home) :
    ∃ report', run.ask disk' .empty (.checkModule moduleFile source?)
        = .ok (.diagnostics report') ∧
      (report'.filter Diagnostic.isError).Sublist (report.filter Diagnostic.isError) ∧
      report'.Sublist report := by
  rw [ask_eq_answer Memo.wellFormed_empty, Reading.answer] at checked ⊢
  obtain ⟨report, checked, same⟩ := Outcome.map_eq_ok.mp checked
  cases same
  obtain ⟨_, resolved', checked⟩ := Outcome.bind_eq_ok.mp checked
  cases grows.resolve_eq resolved' resolved
  obtain ⟨isChecked, passes, checked⟩ := Outcome.bind_eq_ok.mp checked
  have passes' := shouldCheck_eq_ok grows passes rooted again
  rw [Reading.checkModule, resolved, Outcome.ok_bind, passes', Outcome.ok_bind]
  -- A module that is not checked has an empty report in both trees.
  cases isChecked with
  | false =>
    cases checked
    exact ⟨[], rfl, .slnil, .slnil⟩
  | true =>
    obtain ⟨grammar, hasGrammar, checked⟩ := Outcome.bind_eq_ok.mp checked
    obtain ⟨source, hasSource, checked⟩ := Outcome.bind_eq_ok.mp checked
    obtain ⟨exports, extracted, reported⟩ := Outcome.bind_eq_ok.mp checked
    obtain ⟨report', reported', sublist⟩ := diagnose_grows hasSuffixes hasExtensions hasIndex
      lenient grows normal followed reported rooted again
    have hasSource' : source?.elim (disk'.read (Path.render place)) .ok = .ok source := by
      cases source? with
      | some source' => exact hasSource
      | none => exact grows.read_eq_ok hasSource
    refine ⟨report', ?_, sublist.filter _, sublist⟩
    rw [hasGrammar, Outcome.ok_bind, hasSource', Outcome.ok_bind, Reading.checkTree, extracted,
      Outcome.ok_bind, reported']
    rfl

end Growing

section Samples

/-- A run in the directory `p` for modules of one kind. -/
def plainRun : Run := ⟨"/p", Config.default.set "extensions" (.texts [".ts"])⟩

/-- A text that exports one function. -/
def soleSource : Bytes := Text.encode "export function f() {}"

/-- The error about that function. -/
def soleError : Diagnostic := Diagnostic.missingTest ⟨"f", .namedFunction, 1, 1⟩ "m.ts" "en"

/-- A check of a module with one function reports it unless it is covered. -/
lemma ask_sole {disk : Disk} {isCovered : Bool}
    (resolved : disk.resolveFrom plainRun.root "/p/m.ts" = .ok ["p", "m.ts"])
    (passes : plainRun.shouldCheck disk (Path.render ["p", "m.ts"]) = .ok true)
    (shown : disk.relativeTo plainRun.root (Path.render ["p", "m.ts"]) = .ok "m.ts")
    (covered : (plainRun.reading disk .empty).isCovered plainRun disk "f"
      (Path.render ["p", "m.ts"]) = .ok isCovered) :
    plainRun.ask disk .empty (.checkModule "/p/m.ts" (some soleSource))
      = .ok (.diagnostics (if isCovered then [] else [soleError])) := by
  have isModule : Grammar.ofPath (Path.render ["p", "m.ts"]) = .ok .typescript := rfl
  have hasSource : (some soleSource).elim (disk.read (Path.render ["p", "m.ts"])) .ok
      = .ok soleSource := rfl
  have extracted : plainRun.exportsOf (Program.parse .typescript soleSource).root
      = .ok ⟨[⟨"f", .namedFunction, 1, 1⟩], []⟩ := by decide +kernel
  have speaks : plainRun.config.get "locale" = .ok (.string "en") := rfl
  have warned : plainRun.uncheckedExports "m.ts" (.string "en") [] = .ok [] := rfl
  rw [ask_checkModule_eq Memo.wellFormed_empty resolved passes isModule hasSource,
    Reading.checkTree, extracted, Outcome.ok_bind, Reading.diagnose, shown, Outcome.ok_bind,
    speaks, Outcome.ok_bind, Reading.missingTests_cons, covered, Outcome.ok_bind,
    Reading.missingTests, Outcome.ok_bind, Outcome.pure_eq, Outcome.ok_bind, warned]
  cases isCovered with
  | true => rfl
  | false => rfl

/-- What the run covers with the test files that a walk finds. -/
lemma isCovered_plain {disk : Disk} {testFiles : List Path}
    (resolved : disk.resolveFrom plainRun.root (Path.render ["p", "m.ts"]) = .ok ["p", "m.ts"])
    (found : plainRun.filesIn disk Discovery.defaultQuery = testFiles) :
    (plainRun.reading disk .empty).isCovered plainRun disk "f" (Path.render ["p", "m.ts"])
      = .ok ((testFiles.map Path.render).any fun testFile =>
          (factsIn disk testFile).any (·.brings "index"
            (Specifier.spelling [".ts"] "index" testFile (Path.render ["p", "m.ts"])) "f")) := by
  have hasSuffixes : plainRun.config.get "test_suffixes" = .ok (.texts Discovery.defaultSuffixes) :=
    rfl
  have hasExtensions : plainRun.config.get "extensions" = .ok (.texts [".ts"]) := rfl
  have hasIndex : plainRun.config.get "index_name" = .ok (.string "index") := rfl
  have lenient : plainRun.config.isOn "fail_on_unreadable" = .ok false := rfl
  have asked : plainRun.query = .ok Discovery.defaultQuery := rfl
  rw [isCovered_eq_any hasSuffixes hasExtensions hasIndex lenient asked resolved, found]

/-- A project with an empty directory and a link that leads nowhere as long as nothing is added. -/
def danglingDisk (added : List (Path × Entry)) : Disk :=
  ⟨⟨[(["p"], .directory), (["p", "k"], .directory), (["p", "t"], .link "u")] ++ added⟩, []⟩

/-- The dangling link is no directory to go on to. -/
lemma findings_dangling :
    Discovery.Visit.findings (danglingDisk []).tree Discovery.defaultQuery ⟨["p"], ["p"]⟩
        = [.descend ["p", "k"], .nothing] ∧
      Discovery.Visit.findings (danglingDisk []).tree Discovery.defaultQuery
        ⟨["p", "k"], ["p", "k"]⟩ = [] := by
  have top : (danglingDisk []).tree.namesIn ["p"] = ["k", "t"] :=
    List.mergeSort_of_pairwise (by decide)
  have bottom : (danglingDisk []).tree.namesIn ["p", "k"] = [] := List.mergeSort_nil
  simp only [Discovery.Visit.findings, top, bottom]
  decide +kernel

/-- The walk visits the project and its empty directory. -/
lemma visits_dangling : Discovery.visits (danglingDisk []).tree Discovery.defaultQuery [] [["p"]]
    = [⟨["p"], ["p"]⟩, ⟨["p", "k"], ["p", "k"]⟩] := by
  obtain ⟨top, bottom⟩ := findings_dangling
  have first : (danglingDisk []).tree.locate ["p"] = .ok ["p"] := rfl
  have second : (danglingDisk []).tree.locate ["p", "k"] = .ok ["p", "k"] := rfl
  rw [Discovery.visits_new first (by simp) rfl, top]
  simp only [Discovery.directoriesOf, List.filterMap, List.nil_append]
  rw [Discovery.visits_new second (by simp) rfl, bottom]
  simp [Discovery.directoriesOf, Discovery.visits]

/-- Without the link's target there are no test files. -/
lemma filesIn_dangling : plainRun.filesIn (danglingDisk []) Discovery.defaultQuery = [] := by
  have start : Path.ofText (danglingDisk []).cwd plainRun.root = ["p"] := rfl
  rw [filesIn, start, visits_dangling]
  simp [Discovery.Visit.files, findings_dangling, Discovery.eventsOf, Discovery.filesOf]

/-- A test file where the link leads. -/
def linkedTest : List (Path × Entry) :=
  [(["p", "u"], .directory),
    (["p", "u", "x.test.ts"], .file (Text.encode "import { f } from '../m'"))]

/-- With the link's target there, the walk visits it too. -/
lemma visits_linked :
    Discovery.visits (danglingDisk linkedTest).tree Discovery.defaultQuery [] [["p"]]
      = [⟨["p"], ["p"]⟩, ⟨["p", "k"], ["p", "k"]⟩, ⟨["p", "t"], ["p", "u"]⟩] := by
  have top : (danglingDisk linkedTest).tree.namesIn ["p"] = ["k", "t", "u"] :=
    List.mergeSort_of_pairwise (by decide)
  have middle : (danglingDisk linkedTest).tree.namesIn ["p", "k"] = [] := List.mergeSort_nil
  have bottom : (danglingDisk linkedTest).tree.namesIn ["p", "u"] = ["x.test.ts"] :=
    List.mergeSort_singleton _
  have first : (danglingDisk linkedTest).tree.locate ["p"] = .ok ["p"] := rfl
  have second : (danglingDisk linkedTest).tree.locate ["p", "k"] = .ok ["p", "k"] := rfl
  have third : (danglingDisk linkedTest).tree.locate ["p", "t"] = .ok ["p", "u"] := rfl
  have again : (danglingDisk linkedTest).tree.locate ["p", "u"] = .ok ["p", "u"] := rfl
  have descends : Discovery.directoriesOf (Discovery.Visit.findings (danglingDisk linkedTest).tree
      Discovery.defaultQuery ⟨["p"], ["p"]⟩) = [["p", "k"], ["p", "t"], ["p", "u"]] := by
    rw [Discovery.Visit.findings, top]
    rfl
  have ends : Discovery.directoriesOf (Discovery.Visit.findings (danglingDisk linkedTest).tree
      Discovery.defaultQuery ⟨["p", "t"], ["p", "u"]⟩) = [] := by
    rw [Discovery.Visit.findings, bottom]
    rfl
  have nothing : Discovery.directoriesOf (Discovery.Visit.findings (danglingDisk linkedTest).tree
      Discovery.defaultQuery ⟨["p", "k"], ["p", "k"]⟩) = [] := by
    rw [Discovery.Visit.findings, middle]
    rfl
  -- The walk comes to `u` through the link first, and does not list it a second time.
  rw [Discovery.visits_new first (by simp) rfl, descends, List.nil_append,
    Discovery.visits_new second (by simp) rfl, nothing, List.append_nil,
    Discovery.visits_new third (by simp) rfl, ends, List.append_nil,
    Discovery.visits_old again (by simp), Discovery.visits]

/-- The error is there until the test file is added, and then nothing else is. -/
theorem errors_of_grows_dangling :
    ∃ report', plainRun.ask (danglingDisk []) .empty (.checkModule "/p/m.ts" (some soleSource))
        = .ok (.diagnostics [soleError]) ∧
      plainRun.ask (danglingDisk linkedTest) .empty (.checkModule "/p/m.ts" (some soleSource))
        = .ok (.diagnostics report') ∧
      (report'.filter Diagnostic.isError).Sublist [soleError] := by
  have again : (danglingDisk []).resolveFrom plainRun.root (Path.render ["p", "m.ts"])
      = .ok ["p", "m.ts"] := rfl
  have checked : plainRun.ask (danglingDisk []) .empty (.checkModule "/p/m.ts" (some soleSource))
      = .ok (.diagnostics [soleError]) :=
    ask_sole (by decide +kernel) (by decide +kernel) (by decide +kernel)
      (isCovered_plain again filesIn_dangling)
  have grows : (danglingDisk []).GrowsTo (danglingDisk linkedTest) :=
    ⟨FileTree.growsTo_append (by simp [linkedTest]), by decide, by decide, rfl⟩
  have followed : ∀ query, plainRun.query = .ok query → Discovery.StaysFollowed
      (danglingDisk []).tree (danglingDisk linkedTest).tree query ["p"] := by
    intro query asked
    have default : plainRun.query = .ok Discovery.defaultQuery := rfl
    cases default.symm.trans asked
    refine Discovery.staysFollowed_of_taken grows.tree ?_
    rw [visits_dangling, visits_linked]
    decide
  have rooted : (danglingDisk linkedTest).resolve plainRun.root = .ok ["p"] := rfl
  have resolved : (danglingDisk linkedTest).resolveFrom plainRun.root "/p/m.ts"
      = .ok ["p", "m.ts"] := rfl
  obtain ⟨report', checked', sublist, _⟩ := errors_of_grows rfl rfl rfl rfl grows
    (by decide) followed checked rooted resolved resolved
  exact ⟨report', checked, checked', sublist⟩

/-- A project with a test file behind the link `m` in the directory `d`. That link leads through the
link `s` twenty times, and so does the link `a`, which leads to `d` once something stands at `x`. -/
def remoteDisk (added : List (Path × Entry)) : Disk :=
  ⟨⟨[(["s"], .link "."), (["e"], .directory),
      (["e", "x.test.ts"], .file (Text.encode "import { f } from '../p/m'")), (["p"], .directory),
      (["p", "a"], .link "x/../../s/s/s/s/s/s/s/s/s/s/s/s/s/s/s/s/s/s/s/s/p/d"),
      (["p", "d"], .directory),
      (["p", "d", "m"], .link "/s/s/s/s/s/s/s/s/s/s/s/s/s/s/s/s/s/s/s/s/e")] ++ added⟩, []⟩

/-- A directory in the way of the link `a`. -/
def passage : List (Path × Entry) := [(["p", "x"], .directory)]

/-- The walk over the remote project goes through the link `m` to the test file. -/
lemma findings_remote :
    (remoteDisk []).tree.locate ["p", "d", "m"] = .ok ["e"] ∧
      Discovery.Visit.findings (remoteDisk []).tree Discovery.defaultQuery ⟨["p"], ["p"]⟩
        = [.nothing, .descend ["p", "d"]] ∧
      Discovery.Visit.findings (remoteDisk []).tree Discovery.defaultQuery
        ⟨["p", "d"], ["p", "d"]⟩ = [.descend ["p", "d", "m"]] ∧
      Discovery.Visit.findings (remoteDisk []).tree Discovery.defaultQuery ⟨["p", "d", "m"], ["e"]⟩
        = [.event (.found ["e", "x.test.ts"])] := by
  have top : (remoteDisk []).tree.namesIn ["p"] = ["a", "d"] :=
    List.mergeSort_of_pairwise (by decide)
  have middle : (remoteDisk []).tree.namesIn ["p", "d"] = ["m"] := List.mergeSort_singleton _
  have bottom : (remoteDisk []).tree.namesIn ["e"] = ["x.test.ts"] := List.mergeSort_singleton _
  simp only [Discovery.Visit.findings, top, middle, bottom]
  decide +kernel

/-- The remote project has its test file. -/
lemma filesIn_remote : plainRun.filesIn (remoteDisk []) Discovery.defaultQuery
    = [["e", "x.test.ts"]] := by
  obtain ⟨third, top, middle, bottom⟩ := findings_remote
  have start : Path.ofText (remoteDisk []).cwd plainRun.root = ["p"] := rfl
  have first : (remoteDisk []).tree.locate ["p"] = .ok ["p"] := rfl
  have second : (remoteDisk []).tree.locate ["p", "d"] = .ok ["p", "d"] := rfl
  rw [filesIn, start, Discovery.visits_new first (by simp) rfl, top]
  simp only [Discovery.directoriesOf, List.filterMap, List.nil_append]
  rw [Discovery.visits_new second (by simp) rfl, middle]
  simp only [Discovery.directoriesOf, List.filterMap, List.nil_append]
  rw [Discovery.visits_new third (by simp) rfl, bottom]
  simp [Discovery.directoriesOf, Discovery.visits, Discovery.Visit.files, top, middle, bottom,
    Discovery.eventsOf, Discovery.filesOf]

/-- With the passage the walk gets to `d` through the link `a`, and `m` is too far from there. -/
lemma findings_passage :
    (remoteDisk passage).tree.locate ["p", "a"] = .ok ["p", "d"] ∧
      Discovery.Visit.findings (remoteDisk passage).tree Discovery.defaultQuery ⟨["p"], ["p"]⟩
        = [.descend ["p", "a"], .descend ["p", "d"], .descend ["p", "x"]] ∧
      Discovery.Visit.findings (remoteDisk passage).tree Discovery.defaultQuery
        ⟨["p", "a"], ["p", "d"]⟩
        = [.event (.notice (Discovery.inspectFailure ["p", "a", "m"] .tooManyLinks))] ∧
      Discovery.Visit.findings (remoteDisk passage).tree Discovery.defaultQuery
        ⟨["p", "x"], ["p", "x"]⟩ = [] := by
  have top : (remoteDisk passage).tree.namesIn ["p"] = ["a", "d", "x"] :=
    List.mergeSort_of_pairwise (by decide)
  have middle : (remoteDisk passage).tree.namesIn ["p", "d"] = ["m"] := List.mergeSort_singleton _
  have bottom : (remoteDisk passage).tree.namesIn ["p", "x"] = [] := List.mergeSort_nil
  simp only [Discovery.Visit.findings, top, middle, bottom]
  decide +kernel

/-- The walk comes to the directory `d` through the link `a` now, and cannot follow the link in it
from there. -/
lemma filesIn_passage : plainRun.filesIn (remoteDisk passage) Discovery.defaultQuery = [] := by
  obtain ⟨second, top, middle, bottom⟩ := findings_passage
  have start : Path.ofText (remoteDisk passage).cwd plainRun.root = ["p"] := rfl
  have first : (remoteDisk passage).tree.locate ["p"] = .ok ["p"] := rfl
  have again : (remoteDisk passage).tree.locate ["p", "d"] = .ok ["p", "d"] := rfl
  have third : (remoteDisk passage).tree.locate ["p", "x"] = .ok ["p", "x"] := rfl
  rw [filesIn, start, Discovery.visits_new first (by simp) rfl, top]
  simp only [Discovery.directoriesOf, List.filterMap, List.nil_append]
  rw [Discovery.visits_new second (by simp) rfl, middle]
  simp only [Discovery.directoriesOf, List.filterMap, List.append_nil]
  rw [Discovery.visits_old again (by simp),
    Discovery.visits_new third (by simp) rfl, bottom]
  simp [Discovery.directoriesOf, Discovery.visits, Discovery.Visit.files, top, middle, bottom,
    Discovery.eventsOf, Discovery.filesOf]

/-- A project with a link that leads back to itself once something stands at `a`. -/
def turningDisk (added : List (Path × Entry)) : Disk :=
  ⟨⟨[(["p"], .directory), (["p", "l.ts"], .link "a/../l.ts")] ++ added⟩, []⟩

/-- A directory that is added can cover up a test file: the walk takes another path to it, and that
path leads through too many links. It can also end a check, by making a module a link to itself. -/
theorem errors_appear :
    (remoteDisk []).GrowsTo (remoteDisk passage) ∧ plainRun.config.WellTyped ∧
      plainRun.config.isOn "fail_on_unreadable" = .ok false ∧
      plainRun.ask (remoteDisk []) .empty (.checkModule "/p/m.ts" (some soleSource))
        = .ok (.diagnostics []) ∧
      plainRun.ask (remoteDisk passage) .empty (.checkModule "/p/m.ts" (some soleSource))
        = .ok (.diagnostics [soleError]) ∧
      ¬ ([soleError].filter Diagnostic.isError).Sublist
        (([] : List Diagnostic).filter Diagnostic.isError) ∧
      (turningDisk []).GrowsTo (turningDisk [(["p", "a"], .directory)]) ∧
      plainRun.ask (turningDisk []) .empty (.checkModule "/p/l.ts" (some []))
        = .ok (.diagnostics []) ∧
      plainRun.ask (turningDisk [(["p", "a"], .directory)]) .empty
        (.checkModule "/p/l.ts" (some [])) = .error (.linkLoop "/p/l.ts") := by
  have resolved : (remoteDisk []).resolveFrom plainRun.root (Path.render ["p", "m.ts"])
      = .ok ["p", "m.ts"] := by decide +kernel
  have resolved' : (remoteDisk passage).resolveFrom plainRun.root (Path.render ["p", "m.ts"])
      = .ok ["p", "m.ts"] := by decide +kernel
  have facts : factsIn (remoteDisk []) "/e/x.test.ts" = [⟨"../p/m", ⟨["f"], none, none⟩⟩] := by
    decide +kernel
  have spelled : Specifier.spelling [".ts"] "index" "/e/x.test.ts" (Path.render ["p", "m.ts"])
      = "../p/m" := by
    rw [Specifier.spelling, Specifier.ofFile, Specifier.stem_singleton]
    decide +kernel
  refine ⟨⟨FileTree.growsTo_append (by simp [passage]), by decide +kernel, by decide +kernel, rfl⟩,
    by decide +kernel, by decide +kernel, ?_, ?_, by decide +kernel,
    ⟨FileTree.growsTo_append (by simp), by decide +kernel, by decide +kernel, rfl⟩, ?_, ?_⟩
  · have covered := isCovered_plain resolved filesIn_remote
    rw [List.map_singleton, List.any_cons, show Path.render ["e", "x.test.ts"] = "/e/x.test.ts" from
      by decide +kernel, facts, spelled] at covered
    exact ask_sole (by decide +kernel) (by decide +kernel) (by decide +kernel) covered
  · exact ask_sole (by decide +kernel) (by decide +kernel) (by decide +kernel)
      (isCovered_plain resolved' filesIn_passage)
  · rw [ask_eq_answer Memo.wellFormed_empty]
    decide +kernel
  · rw [ask_eq_answer Memo.wellFormed_empty]
    decide +kernel

end Samples

end Run

end ExportCover
