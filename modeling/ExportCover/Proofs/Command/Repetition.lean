import Mathlib.Algebra.BigOperators.Group.List.Basic
import Mathlib.Data.List.Count
import ExportCover.Proofs.Command.Refinement
import ExportCover.Proofs.Exports.Occurrence
import ExportCover.Proofs.Path.Relative

/-!
# How often an error is printed

A check of one module reports an error no more often than the function is exported in the source
file of the module (`Reading.exists_occurrence`). Modules are selected by their paths and shown by
the places where they are found, so two paths to one file are checked twice. Where all modules are
different files, and backslashes do not make two places look alike, every error that is printed
belongs to one of them, and it is printed no more often than its function is exported there
(`count_errors_le`).
-/

namespace ExportCover

namespace FileTree

/-- No name in the tree holds a backslash. -/
def IsPlain (tree : FileTree) : Prop :=
  ∀ listed ∈ tree.entries, ∀ name ∈ listed.1, '\\' ∉ name.toList

/-- Whether a tree is plain can be computed. -/
instance (tree : FileTree) : Decidable tree.IsPlain :=
  inferInstanceAs (Decidable (∀ listed ∈ tree.entries, ∀ name ∈ listed.1, '\\' ∉ name.toList))

/-- In a plain tree no name on the way to an entry holds a backslash. -/
lemma IsPlain.of_entry? {tree : FileTree} (plain : tree.IsPlain) {place : Path} {entry : Entry}
    (found : tree.entry? place = some entry) : ∀ name ∈ place, '\\' ∉ name.toList := by
  by_cases root : place = []
  · subst root
    exact nofun
  · exact plain _ (mem_entries root found)

end FileTree

namespace Diagnostic

/-- Diagnostics about different functions differ. -/
lemma missingTest_injective (file locale : String) :
    Function.Injective fun function => missingTest function file locale := by
  have kinds : Function.Injective DeclarationKind.name := by
    intro a b same
    cases a <;> cases b <;> simp_all [DeclarationKind.name]
  intro a b same
  obtain ⟨_, _, _, _⟩ := a
  obtain ⟨_, _, _, _⟩ := b
  simp only [missingTest, Diagnostic.mk.injEq, true_and] at same
  obtain ⟨rfl, rfl, rfl, kind⟩ := same
  rw [kinds kind]

end Diagnostic

/-- The check of a path reads the tree of a source file, which is shown under a relative path. -/
def Run.ReadsAs (run : Run) (disk : Disk) (file shown : String) (tree : Node) : Prop :=
  ∃ place grammar source, disk.resolveFrom run.root file = .ok place ∧
    disk.relativeTo run.root (Path.render place) = .ok shown ∧
    Grammar.ofPath (Path.render place) = .ok grammar ∧
    disk.read (Path.render place) = .ok source ∧ (Program.parse grammar source).root = tree

namespace Reading

variable {reading : Reading} {run : Run} {disk : Disk} {file language : String}

/-- Every error of a report is about a function of the source file that was read, and stands there
no more often than the function is exported. -/
lemma exists_occurrence (typed : run.config.WellTyped) {report : List Diagnostic}
    (checked : reading.checkModule run disk file none = .ok report) {diagnostic : Diagnostic}
    (mem : diagnostic ∈ report) (isError : diagnostic.severity = .error) :
    ∃ tree function, run.ReadsAs disk file diagnostic.file tree ∧
      diagnostic = .missingTest function diagnostic.file (run.config.textOf "locale") ∧
      report.count diagnostic
        ≤ tree.occurrences (run.config.textOf "ignore_marker") function := by
  obtain ⟨place, resolved, checked⟩ := Outcome.bind_eq_ok.mp checked
  obtain ⟨isChecked, _, checked⟩ := Outcome.bind_eq_ok.mp checked
  cases isChecked with
  | false =>
    cases checked
    cases mem
  | true =>
    obtain ⟨grammar, hasGrammar, checked⟩ := Outcome.bind_eq_ok.mp checked
    obtain ⟨source, hasSource, checked⟩ := Outcome.bind_eq_ok.mp checked
    obtain ⟨exports, extracted, checked⟩ := Outcome.bind_eq_ok.mp checked
    rw [Run.exportsOf_eq typed] at extracted
    obtain ⟨shown, relative, checked⟩ := Outcome.bind_eq_ok.mp checked
    rw [typed.get_text rfl, Outcome.ok_bind] at checked
    obtain ⟨missing, reported, checked⟩ := Outcome.bind_eq_ok.mp checked
    rw [Run.uncheckedExports_eq typed, Outcome.ok_bind] at checked
    cases checked
    -- Exports that are not checked are warnings, so that all errors are among the missing tests.
    have notWarned : diagnostic ∉ (if run.config.switchOf "report_unchecked_exports" then
        exports.unchecked.map (Diagnostic.unchecked · shown (run.config.textOf "locale"))
        else []) := by
      split
      · intro warned
        obtain ⟨_, _, rfl⟩ := List.mem_map.mp warned
        cases isError
      · exact List.not_mem_nil
    have within := sublist_of_missingTests reported
    obtain ⟨function, _, rfl⟩ := List.mem_map.mp
      (within.subset ((List.mem_append.mp mem).resolve_right notWarned))
    refine ⟨_, function, ⟨place, grammar, source, resolved, relative, hasGrammar, hasSource, rfl⟩,
      rfl, ?_⟩
    rw [List.count_append, List.count_eq_zero.mpr notWarned, Nat.add_zero,
      ← Node.count_exports extracted]
    refine (within.count_le _).trans (Nat.le_of_eq ?_)
    exact List.count_map_of_injective _ _ (Diagnostic.missingTest_injective shown _) function

end Reading

namespace Run

variable {run : Run} {disk : Disk} {file shown : String} {tree : Node}

/-- Where a module that is checked is found. The check looks it up once more at the place to which
its path leads. -/
def homeOf (run : Run) (disk : Disk) (file : String) : Except Fault Path := do
  disk.resolve (Path.render (← disk.resolveFrom run.root file))

/-- How a module is shown says where it is found. -/
lemma ReadsAs.exists_home (reads : run.ReadsAs disk file shown tree) (proper : disk.tree.IsProper)
    (plain : disk.tree.IsPlain) :
    ∃ base, disk.resolve run.root = .ok base ∧
      run.homeOf disk file = .ok (Path.follow base (Path.names shown)) := by
  obtain ⟨place, grammar, source, resolved, relative, _, read, _⟩ := reads
  obtain ⟨home, again, found⟩ := Disk.exists_home proper read
  rw [Disk.relativeTo_eq] at relative
  obtain ⟨base, rooted, relative⟩ := Outcome.bind_eq_ok.mp relative
  rw [again, Outcome.ok_bind] at relative
  cases relative
  refine ⟨base, rooted, ?_⟩
  have same : Path.follow base (Path.names (Specifier.foldSeparators
      (Path.renderNames (Path.relative home base)))) = home :=
    Path.follow_shown base (proper.normal_of_entry? found) (plain.of_entry? found)
  rw [homeOf, resolved, Outcome.ok_bind, again]
  exact congrArg Except.ok same.symm

end Run

namespace Command

variable {setting : Setting} {arguments : List String} {run : Run} {disk : Disk}
  {isVerbose asJson : Bool} {paths modules : List String}

/-- No two of the modules are found at one place. -/
def AreApart (run : Run) (disk : Disk) (modules : List String) : Prop :=
  ∀ file ∈ modules, ∀ file' ∈ modules, ∀ home, run.homeOf disk file = .ok home →
    run.homeOf disk file' = .ok home → file = file'

/-- Modules that are apart and shown in the same way are the same. -/
lemma AreApart.eq_of_readsAs (apart : AreApart run disk modules) (proper : disk.tree.IsProper)
    (plain : disk.tree.IsPlain) {file file' shown : String} {tree tree' : Node}
    (mem : file ∈ modules) (mem' : file' ∈ modules) (reads : run.ReadsAs disk file shown tree)
    (reads' : run.ReadsAs disk file' shown tree') : file' = file := by
  obtain ⟨base, rooted, home⟩ := reads.exists_home proper plain
  obtain ⟨base', rooted', home'⟩ := reads'.exists_home proper plain
  cases rooted.symm.trans rooted'
  exact apart file' mem' file mem _ home' home

/-- What only one of several reports holds is counted there. -/
lemma count_flatMap_eq {reports : String → List Diagnostic} {diagnostic : Diagnostic}
    (nodup : modules.Nodup) {file : String} (mem : file ∈ modules)
    (only : ∀ file' ∈ modules, diagnostic ∈ reports file' → file' = file) :
    (modules.flatMap reports).count diagnostic = (reports file).count diagnostic := by
  rw [List.count_flatMap, List.sum_map_eq_nsmul_single file]
  · rw [List.count_eq_one_of_mem nodup mem, one_nsmul]
    rfl
  · intro file' ne mem'
    exact List.count_eq_zero.mpr fun held => ne (only file' mem' held)

/-- What a check that ends prints: the sorted reports of all modules, or nothing. -/
lemma Asks.exists_reports (asks : Asks setting arguments run isVerbose paths asJson)
    (selected : modulesToCheck run setting.disk paths = .ok modules) {output : Output}
    (ended : (Command.run setting arguments).output = .ok output) :
    output.exit = 2 ∧ output.out = "" ∨
      ∃ reports : String → List Diagnostic,
        (∀ file ∈ modules, (run.reading setting.disk .empty).checkModule run setting.disk file none
          = .ok (reports file)) ∧
        report setting.terminal asJson (Diagnostic.sort (modules.flatMap reports))
          = .ok output.out := by
  obtain ⟨tests, first, second, printed⟩ := asks.output_eq selected
  rw [printed] at ended
  cases checked : (run.reading setting.disk .empty).checkAll run setting.disk modules with
  | ok found =>
    obtain ⟨reports, reported, rfl⟩ := ExportCover.Reading.exists_of_checkAll checked
    rw [checked] at ended
    obtain ⟨out, shown, ended⟩ := Outcome.bind_eq_ok.mp ended
    cases ended
    exact .inr ⟨reports, reported, shown⟩
  | error fault =>
    rw [checked, conclude] at ended
    split at ended
    · cases ended
      exact .inl ⟨rfl, rfl⟩
    · cases ended

/-- Where the modules of a check are different files and no name holds a backslash, every error that
is printed is about one source file, and it is printed no more often than its function is exported
there. -/
theorem count_errors_le (asks : Asks setting arguments run isVerbose paths asJson)
    (selected : modulesToCheck run setting.disk paths = .ok modules)
    (proper : setting.disk.tree.IsProper) (plain : setting.disk.tree.IsPlain)
    (apart : AreApart run setting.disk modules) {output : Output}
    (ended : (Command.run setting arguments).output = .ok output) :
    output.exit = 2 ∧ output.out = "" ∨
      ∃ diagnostics, report setting.terminal asJson diagnostics = .ok output.out ∧
        ∀ diagnostic ∈ diagnostics, diagnostic.severity = .error →
          ∃ file ∈ modules, ∃ tree function,
            run.ReadsAs setting.disk file diagnostic.file tree ∧
            (∀ file' ∈ modules, ∀ tree', run.ReadsAs setting.disk file' diagnostic.file tree' →
              file' = file) ∧
            diagnostic = .missingTest function diagnostic.file (run.config.textOf "locale") ∧
            diagnostics.count diagnostic
              ≤ tree.occurrences (run.config.textOf "ignore_marker") function := by
  obtain nothing | ⟨reports, reported, shown⟩ := asks.exists_reports selected ended
  · exact .inl nothing
  refine .inr ⟨_, shown, fun diagnostic mem isError => ?_⟩
  rw [Diagnostic.sort, List.mem_mergeSort, List.mem_flatMap] at mem
  obtain ⟨file, listed, mem⟩ := mem
  obtain ⟨tree, function, reads, same, le⟩ :=
    ExportCover.Reading.exists_occurrence asks.typed (reported file listed) mem isError
  have only : ∀ file' ∈ modules, ∀ tree', run.ReadsAs setting.disk file' diagnostic.file tree' →
      file' = file :=
    fun file' listed' tree' reads' => apart.eq_of_readsAs proper plain listed listed' reads reads'
  refine ⟨file, listed, tree, function, reads, only, same, ?_⟩
  obtain ⟨sorted, _⟩ := mem_modulesToCheck asks.typed selected
  -- The error is in the report of one module only, so that it is counted there.
  rw [Diagnostic.sort, (List.mergeSort_perm _ _).count_eq, count_flatMap_eq sorted.nodup listed]
  · exact le
  · intro file' listed' mem'
    obtain ⟨tree', _, reads', _⟩ :=
      ExportCover.Reading.exists_occurrence asks.typed (reported file' listed') mem' isError
    exact only file' listed' tree' reads'

/-- In the pair no error is printed more often than its function is exported. -/
theorem count_errors_le_pair :
    ∃ output diagnostics,
      (Command.run (plainly pairDisk) ["check", "--json", "b.ts", "a.ts", "./b.ts"]).output
        = .ok output ∧ output.exit = 1 ∧
      report (plainly pairDisk).terminal true diagnostics = .ok output.out ∧
      ∀ diagnostic ∈ diagnostics, diagnostic.severity = .error →
        ∃ file ∈ ["/a.ts", "/b.ts"], ∃ tree function,
          rootRun.ReadsAs pairDisk file diagnostic.file tree ∧
          diagnostics.count diagnostic ≤ tree.occurrences "test-ignore" function := by
  have apart : AreApart rootRun pairDisk ["/a.ts", "/b.ts"] := by
    have distinct : ∀ file ∈ ["/a.ts", "/b.ts"], ∀ file' ∈ ["/a.ts", "/b.ts"],
        rootRun.homeOf pairDisk file = rootRun.homeOf pairDisk file' → file = file' := by
      decide +kernel
    intro file mem file' mem' home found found'
    exact distinct file mem file' mem' (found.trans found'.symm)
  obtain ⟨tests, first, second, out, printed, ended⟩ := asks_pair.output_of_reports selected_pair
    fun file mem => ask_eq_ok.mp (ask_pair file mem)
  have errors : ["/a.ts", "/b.ts"].flatMap
      (fun file => if file = "/a.ts" then [pairError] else []) = [pairError] := by decide
  have exit : exitCode (Diagnostic.sort [pairError]) = 1 := by
    rw [Diagnostic.sort, List.mergeSort_singleton]
    rfl
  rw [errors, exit] at ended
  obtain ⟨finished, _⟩ | ⟨diagnostics, shown, counted⟩ := count_errors_le asks_pair selected_pair
    (by decide +kernel) (by decide +kernel) apart ended
  · cases finished
  refine ⟨_, diagnostics, ended, rfl, shown, fun diagnostic mem isError => ?_⟩
  obtain ⟨file, listed, tree, function, reads, _, _, le⟩ := counted diagnostic mem isError
  exact ⟨file, listed, tree, function, reads, le⟩

/-- A project of one module and a link to it. -/
def aliasDisk : Disk :=
  ⟨⟨[(["a.ts"], .file (Text.encode "export function f() {}")), (["b.ts"], .link "a.ts")]⟩, []⟩

/-- The project with the alias has no test files. -/
lemma files_alias : (rootRun.reading aliasDisk .empty).files = .ok [] :=
  files_root (by decide +kernel)

/-- The module and its alias are both selected. -/
lemma selected_alias : modulesToCheck rootRun aliasDisk [] = .ok ["/a.ts", "/b.ts"] := by
  have under : sourcesUnder aliasDisk rootRun.config "/" = .ok ["/a.ts", "/b.ts"] := by
    have resolved : aliasDisk.resolve (Disk.absolute "/" "/") = .ok [] := rfl
    have sources : Discovery.sourcesAt aliasDisk.tree [] Specifier.defaultExtensions
        Discovery.defaultExclusions = [["a.ts"], ["b.ts"]] := rfl
    refine (Discovery.sourceFiles_eq resolved Specifier.defaultExtensions
      Discovery.defaultExclusions).trans ?_
    rw [sources]
    exact congrArg Except.ok (List.mergeSort_of_pairwise (by decide +kernel))
  have chosen : selectFiles aliasDisk rootRun.root rootRun.config [] = .ok ["/a.ts", "/b.ts"] := by
    rw [selectFiles_eq (by decide +kernel), startsOf, List.isEmpty_nil, if_pos rfl,
      show rootRun.root = "/" from rfl, List.mapM_cons, under]
    exact congrArg Except.ok (List.mergeSort_of_pairwise (by decide +kernel))
  rw [modulesToCheck, chosen, Outcome.ok_bind]
  decide +kernel

/-- The module and its alias have the same report. -/
lemma checkModule_alias : ∀ file ∈ ["/a.ts", "/b.ts"],
    (rootRun.reading aliasDisk .empty).checkModule rootRun aliasDisk file none
      = .ok [pairError] := by
  have reading : rootRun.reading aliasDisk .empty
      = ⟨.ok [], (rootRun.reading aliasDisk .empty).imports⟩ := by
    rw [← files_alias]
  rw [reading]
  decide +kernel

/-- The module and the link are two modules for the check but one file: the error about the only
function that is exported there is printed twice. -/
theorem count_errors_alias :
    ∃ err tree, (Command.run (plainly aliasDisk) ["check", "--json"]).output
        = .ok ⟨1, Json.render (Diagnostic.report [pairError, pairError]) ++ "\n", err⟩ ∧
      rootRun.ReadsAs aliasDisk "/a.ts" pairError.file tree ∧
      rootRun.ReadsAs aliasDisk "/b.ts" pairError.file tree ∧
      tree.occurrences "test-ignore" ⟨"f", .namedFunction, 1, 1⟩ = 1 ∧
      pairError = .missingTest ⟨"f", .namedFunction, 1, 1⟩ pairError.file "en" := by
  have asks : Asks (plainly aliasDisk) ["check", "--json"] rootRun false [] true :=
    asks_root (by decide +kernel) rfl rfl rfl
  obtain ⟨tests, first, second, out, printed, ended⟩ := asks.output_of_reports selected_alias
    checkModule_alias
  have sorted : Diagnostic.sort (["/a.ts", "/b.ts"].flatMap fun _ => [pairError])
      = [pairError, pairError] :=
    List.mergeSort_of_pairwise (by decide +kernel)
  rw [sorted] at printed ended
  cases printed
  refine ⟨_, _, ended, ⟨["a.ts"], .typescript, _, rfl, rfl, rfl, rfl, rfl⟩,
    ⟨["a.ts"], .typescript, _, rfl, rfl, rfl, rfl, rfl⟩, by decide +kernel, rfl⟩

end Command

end ExportCover
