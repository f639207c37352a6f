import ExportCover.Proofs.Exports.Position
import ExportCover.Proofs.Report.Sorting
import ExportCover.Proofs.Run.Failure

/-!
# A module as a whole and statement by statement

The exports of a module can be checked together or one statement after the other. The two reports
hold the same diagnostics, but the report about the module lists all errors before all warnings.
Sorted, they are equal if no two statements start at the same position. A lookup that fails ends
both checks with the same fault (`checkModule_agrees`).
-/

namespace ExportCover

/-- The diagnostics about export statements of a module, one statement after the other. -/
def Run.checkExports (run : Run) (disk : Disk) (moduleFile : String) (symbols : SymbolTable) :
    List (List Node × Node) → Work (List Diagnostic)
  | [] => return []
  | (preceding, statement) :: rest => do
    let first ← run.checkExport disk moduleFile symbols preceding statement
    return first ++ (← checkExports run disk moduleFile symbols rest)

/-- The diagnostics about export statements of a module, one statement after the other. -/
def Reading.checkExports (reading : Reading) (run : Run) (disk : Disk) (moduleFile : String)
    (symbols : SymbolTable) : List (List Node × Node) → Except Fault (List Diagnostic)
  | [] => .ok []
  | (preceding, statement) :: rest => do
    let first ← reading.checkExport run disk moduleFile symbols preceding statement
    return first ++ (← checkExports reading run disk moduleFile symbols rest)

namespace Run

variable {run : Run} {disk : Disk}

/-- A check of statements gives what its reading says. -/
lemma gives_checkExports {kept : Memo → Prop} {reading : Reading}
    (files : Work.Gives kept (run.testFiles disk) reading.files)
    (imports : ∀ file, Work.Gives kept (run.importFacts disk file) (reading.imports file))
    {moduleFile symbols} (statements : List (List Node × Node)) :
    Work.Gives kept (run.checkExports disk moduleFile symbols statements)
      (reading.checkExports run disk moduleFile symbols statements) := by
  induction statements with
  | nil => exact .pure []
  | cons placed rest ih =>
    exact (gives_checkExport files imports).bind fun first _ => ih.bind fun others _ => .pure _

end Run

namespace Run

/-- The configuration says how to report: in which language, and whether to warn about exports that
are not checked. -/
structure Reports (run : Run) (language : String) (warns : Bool) : Prop where
  locale : ∃ value, run.config.get "locale" = .ok value ∧ localeOf value = .ok language
  switch : run.config.isOn "report_unchecked_exports" = .ok warns

/-- A well-typed configuration says how to report. -/
lemma reports_of_wellTyped {run : Run} (typed : run.config.WellTyped) :
    run.Reports (run.config.textOf "locale") (run.config.switchOf "report_unchecked_exports") :=
  ⟨⟨_, typed.get_text rfl, rfl⟩, typed.isOn_eq rfl⟩

/-- The marker that the configuration gives for a statement with the siblings before it. -/
def Marks (run : Run) (marker : String) (placed : List Node × Node) : Prop :=
  (do markerFor (← run.config.get "ignore_marker") (Node.commentAbove? placed.1 placed.2).isSome)
    = .ok marker

/-- The exports of a program are collected under one marker, which is that of each statement. -/
lemma exists_marker {run : Run} {tree : Node} {exports : Exports}
    (extracted : run.exportsOf tree = .ok exports) :
    ∃ marker, tree.exports marker = .ok exports ∧
      ∀ placed ∈ tree.placedExports, run.Marks marker placed := by
  obtain ⟨value, found, extracted⟩ := Outcome.bind_eq_ok.mp extracted
  obtain ⟨marker, given, extracted⟩ := Outcome.bind_eq_ok.mp extracted
  refine ⟨marker, extracted, fun placed mem => ?_⟩
  rw [Marks, found, Outcome.ok_bind]
  by_cases isText : ∃ text, value = .string text
  · obtain ⟨text, rfl⟩ := isText
    exact given
  · -- No text: the value counts as false, or there is no comment above any of the statements.
    have noText : ∀ text, value = .string text → False := fun text same => isText ⟨text, same⟩
    rw [markerFor.eq_2 _ _ noText] at given ⊢
    split at given
    · cases given
    next quiet =>
      cases given
      rw [if_neg]
      intro loud
      obtain ⟨truthy, hasComment⟩ := Bool.and_eq_true_iff.mp loud
      refine quiet (Bool.and_eq_true_iff.mpr ⟨truthy, ?_⟩)
      exact List.any_eq_true.mpr ⟨placed, mem, hasComment⟩

end Run

namespace Reading

variable {reading : Reading} {run : Run} {disk : Disk} {moduleFile shown language : String}
  {place : Path} {warns : Bool}

/-- The report about exports is one error for each function that is not covered, then the
warnings. -/
lemma diagnose_eq_bind (reports : run.Reports language warns)
    (relative : disk.relativeTo run.root moduleFile = .ok shown) (exports : Exports) :
    reading.diagnose run disk exports moduleFile
      = (do
        let errors ← reading.missingTests run disk moduleFile shown (.string language)
          exports.functions
        return errors ++ Diagnostic.warnings warns shown language exports.unchecked) := by
  obtain ⟨value, found, speaks⟩ := reports.locale
  have unchecked : run.uncheckedExports shown value exports.unchecked
      = .ok (Diagnostic.warnings warns shown language exports.unchecked) := by
    rw [Run.uncheckedExports, reports.switch, Outcome.ok_bind, speaks]
    cases warns with
    | false => rfl
    | true => exact List.mapM_pure
  rw [diagnose, relative, Outcome.ok_bind, found, Outcome.ok_bind, missingTests_locale speaks,
    unchecked]
  rfl

/-- A check of a statement that is not marked reports on what it exports. -/
lemma checkExport_eq {marker : String} {symbols : SymbolTable} {preceding : List Node}
    {statement : Node} (resolved : disk.resolveFrom run.root moduleFile = .ok place)
    (marks : run.Marks marker (preceding, statement)) :
    reading.checkExport run disk moduleFile symbols preceding statement
      = if statement.isMarked marker preceding then .ok []
        else statement.exportsOfStatement symbols >>= fun exports =>
          reading.diagnose run disk exports (Path.render place) := by
  obtain ⟨value, found, given⟩ := Outcome.bind_eq_ok.mp marks
  rw [checkExport, resolved, Outcome.ok_bind, found, Outcome.ok_bind, given]
  rfl

/-- What is reported about one statement points to its start. -/
lemma placed_part {statement : Node} {symbols : SymbolTable} {exports : Exports}
    {errors : List Diagnostic} (extracted : statement.exportsOfStatement symbols = .ok exports)
    (reported : reading.missingTests run disk moduleFile shown (.string language)
      exports.functions = .ok errors) :
    Diagnostic.Part.Placed ⟨(statement.line, statement.column), errors,
      Diagnostic.warnings warns shown language exports.unchecked⟩ := by
  have placed := Node.placedAt_statement extracted
  intro diagnostic mem
  obtain mem | mem := List.mem_append.mp mem
  · obtain ⟨function, offered, rfl⟩ := exists_of_mem_missingTests reported diagnostic mem
    obtain ⟨line, column⟩ := placed.functions function offered
    exact Prod.ext line column
  · cases warns with
    | false => cases mem
    | true =>
      obtain ⟨exported, offered, rfl⟩ := List.mem_map.mp mem
      obtain ⟨line, column⟩ := placed.unchecked exported offered
      exact Prod.ext line column

section Agree

variable (reports : run.Reports language warns)
  (resolved : disk.resolveFrom run.root moduleFile = .ok place)
  (relative : disk.relativeTo run.root (Path.render place) = .ok shown)
include reports resolved relative

/-- The two ways to check statements agree. -/
lemma agree_checkExports {marker : String} {symbols : SymbolTable}
    {statements : List (List Node × Node)} (marks : ∀ placed ∈ statements, run.Marks marker placed)
    (extracted : ∀ placed ∈ statements.filter (Node.isUnmarked marker),
      placed.2.exportsOfStatement symbols = .ok (placed.2.offered symbols)) :
    Diagnostic.Agree
      ((statements.filter (Node.isUnmarked marker)).map fun placed =>
        (placed.2.line, placed.2.column))
      (reading.missingTests run disk (Path.render place) shown (.string language)
        (Exports.join ((statements.filter (Node.isUnmarked marker)).map fun placed =>
          placed.2.offered symbols)).functions)
      (Diagnostic.warnings warns shown language
        (Exports.join ((statements.filter (Node.isUnmarked marker)).map fun placed =>
          placed.2.offered symbols)).unchecked)
      (reading.checkExports run disk moduleFile symbols statements) := by
  induction statements with
  | nil =>
    have none : Diagnostic.warnings warns shown language [] = [] := by
      cases warns <;> rfl
    exact none ▸ .report [] nofun rfl
  | cons placed rest ih =>
    obtain ⟨preceding, statement⟩ := placed
    obtain ⟨here, marks⟩ := List.forall_mem_cons.mp marks
    rw [checkExports, checkExport_eq resolved here]
    by_cases marked : statement.isMarked marker preceding = true
    · -- A marked statement adds nothing to either report.
      rw [List.filter_cons_of_neg (by simp [Node.isUnmarked, marked])] at extracted ⊢
      simp only [if_pos marked, Outcome.ok_bind, List.nil_append, bind_pure]
      exact ih marks extracted
    · rw [List.filter_cons_of_pos (by simp [Node.isUnmarked, marked])] at extracted ⊢
      obtain ⟨offers, extracted⟩ := List.forall_mem_cons.mp extracted
      rw [if_neg marked, offers, Outcome.ok_bind, diagnose_eq_bind reports relative, List.map_cons,
        List.map_cons, Exports.join_cons]
      -- What the statement offers comes first in both lists of what all statements offer.
      change Diagnostic.Agree _ (reading.missingTests _ _ _ _ _ (_ ++ _))
        (Diagnostic.warnings _ _ _ (_ ++ _)) _
      rw [missingTests_append, Diagnostic.warnings_append]
      cases reported : reading.missingTests run disk (Path.render place) shown (.string language)
          (statement.offered symbols).functions with
      | error fault => exact .fault fault _
      | ok errors => exact (ih marks extracted).cons _ (placed_part offers reported)

variable {tree : Node} {exports : Exports} (extracted : run.exportsOf tree = .ok exports)
include extracted

/-- The two ways to check the tree of a module agree. -/
lemma exists_agree (reading : Reading) :
    ∃ starts, starts.Sublist (tree.placedExports.map fun placed =>
        (placed.2.line, placed.2.column)) ∧
      Diagnostic.Agree starts
        (reading.missingTests run disk (Path.render place) shown (.string language)
          exports.functions)
        (Diagnostic.warnings warns shown language exports.unchecked)
        (reading.checkExports run disk moduleFile tree.symbolTable tree.placedExports) ∧
      reading.checkTree run disk (Path.render place) tree
        = (do
          let errors ← reading.missingTests run disk (Path.render place) shown (.string language)
            exports.functions
          return errors ++ Diagnostic.warnings warns shown language exports.unchecked) := by
  obtain ⟨marker, collected, marks⟩ := Run.exists_marker extracted
  obtain ⟨offers, same⟩ := Node.exports_eq_join collected
  refine ⟨_, (List.filter_sublist (p := Node.isUnmarked marker)).map _, ?_, ?_⟩
  · rw [same]
    exact agree_checkExports reports resolved relative marks offers
  · rw [checkTree, extracted, Outcome.ok_bind, diagnose_eq_bind reports relative]

/-- If all lookups succeed, the two reports hold the same. -/
lemma exists_reports (looked : ∀ function ∈ exports.functions, ∃ covered,
      reading.isCovered run disk function.name (Path.render place) = .ok covered) :
    ∃ report parts, reading.checkTree run disk (Path.render place) tree = .ok report ∧
      reading.checkExports run disk moduleFile tree.symbolTable tree.placedExports = .ok parts ∧
      report.Perm parts ∧ (warns = false → report = parts) ∧
      ((tree.placedExports.map fun placed => (placed.2.line, placed.2.column)).Nodup →
        Diagnostic.sort report = Diagnostic.sort parts) := by
  obtain ⟨starts, sublist, agree, whole⟩ := exists_agree reports resolved relative extracted reading
  cases reported : reading.missingTests run disk (Path.render place) shown (.string language)
      exports.functions with
  | error fault =>
    obtain ⟨function, mem, failed⟩ := exists_failed reported
    obtain ⟨covered, succeeded⟩ := looked function mem
    cases failed.symm.trans succeeded
  | ok errors =>
    obtain ⟨parts, each, perm, equal, sorted⟩ := agree.exists_report reported
    rw [reported] at whole
    refine ⟨_, parts, whole, each, perm, fun off => equal ?_, fun distinct => sorted ?_⟩
    · rw [off]
      rfl
    · exact distinct.sublist sublist

/-- If a lookup fails, both checks fail with its fault. -/
lemma checks_eq_error {function : ExportedFunction} {fault : Fault}
    (mem : function ∈ exports.functions)
    (failed : reading.isCovered run disk function.name (Path.render place) = .error fault) :
    reading.checkTree run disk (Path.render place) tree = .error fault ∧
      reading.checkExports run disk moduleFile tree.symbolTable tree.placedExports
        = .error fault := by
  obtain ⟨starts, _, agree, whole⟩ := exists_agree reports resolved relative extracted reading
  cases reported : reading.missingTests run disk (Path.render place) shown (.string language)
      exports.functions with
  | error fault' =>
    -- The report ends at the first lookup that fails, which need not be the given one.
    obtain ⟨other, _, failed'⟩ := exists_failed reported
    obtain rfl : fault' = fault := by
      obtain covered | same : reading.isCovered run disk other.name (Path.render place) = .ok true ∨
          reading.isCovered run disk other.name (Path.render place) = .error fault :=
        isCovered_error failed
      · cases failed'.symm.trans covered
      · exact Except.error.inj (failed'.symm.trans same)
    rw [reported] at whole
    exact ⟨whole, agree.each_eq_error reported⟩
  | ok errors =>
    obtain ⟨covered, succeeded⟩ := exists_covered reported function mem
    cases failed.symm.trans succeeded

end Agree

end Reading

namespace Run

/-- What a history on one disk shows is what was shown before it. -/
lemma reading_replay_append {run : Run} {disk : Disk} (past : List (Disk × Operation))
    (operations : List Operation) :
    run.reading disk (run.replay (past ++ operations.map (disk, ·)) .empty)
      = run.reading disk (run.replay past .empty) := by
  rw [replay_append, reading_replay (wellFormed_replay run past)]

/-- A check of a module as a whole and a check of its export statements, one after the other, agree
on a disk that does not change, whatever was asked in between. If all lookups of the exported
functions succeed, the reports hold the same diagnostics; they are equal if no warnings are asked
for, and sorted they are equal if the statements start at different positions. If a lookup fails,
both checks end with its fault, which is about a test file that cannot be read if the configuration
is well typed. -/
theorem checkModule_agrees (run : Run) (disk : Disk) (past : List (Disk × Operation))
    (before beside : List Operation) {language moduleFile : String} {warns : Bool} {place : Path}
    {tree : Node} {exports : Exports} (reports : run.Reports language warns)
    (resolved : disk.resolveFrom run.root moduleFile = .ok place)
    (checked : run.shouldCheck disk (Path.render place) = .ok true)
    (extracted : run.exportsOf tree = .ok exports) :
    ∃ whole each : Except Fault (List Diagnostic),
      ((run.checkTree disk (Path.render place) tree).runWith
        (run.replay (past ++ before.map (disk, ·)) .empty)).1 = whole ∧
      (∀ source? grammar source, Grammar.ofPath (Path.render place) = .ok grammar →
        source?.elim (disk.read (Path.render place)) .ok = .ok source →
        (Program.parse grammar source).root = tree →
        run.ask disk (run.replay (past ++ before.map (disk, ·)) .empty)
          (.checkModule moduleFile source?) = .diagnostics <$> whole) ∧
      ((run.checkExports disk moduleFile tree.symbolTable tree.placedExports).runWith
        (run.replay (past ++ beside.map (disk, ·)) .empty)).1 = each ∧
      ((∀ function ∈ exports.functions, ∃ covered, run.ask disk (run.replay past .empty)
          (.isCovered function.name (Path.render place)) = .ok (.verdict covered)) →
        ∃ report parts, whole = .ok report ∧ each = .ok parts ∧ report.Perm parts ∧
          (warns = false → report = parts) ∧
          ((tree.placedExports.map fun placed => (placed.2.line, placed.2.column)).Nodup →
            Diagnostic.sort report = Diagnostic.sort parts)) ∧
      (∀ function ∈ exports.functions, ∀ fault, run.ask disk (run.replay past .empty)
          (.isCovered function.name (Path.render place)) = .error fault →
        whole = .error fault ∧ each = .error fault ∧
          (run.config.WellTyped → ∃ testFile cause, fault = .unreadableTest testFile cause)) := by
  have wf := wellFormed_replay run past
  have wfBefore := wellFormed_replay run (past ++ before.map (disk, ·))
  have wfBeside := wellFormed_replay run (past ++ beside.map (disk, ·))
  obtain ⟨shown, relative⟩ := exists_relativeTo checked
  refine ⟨_, _, (gives_checkTree gives_testFiles gives_importFacts).outcome_eq ⟨wfBefore, rfl⟩, ?_,
    (gives_checkExports gives_testFiles gives_importFacts _).outcome_eq ⟨wfBeside, rfl⟩, ?_, ?_⟩
  · rintro source? grammar source hasGrammar hasSource rfl
    exact ask_checkModule_eq wfBefore resolved checked hasGrammar hasSource
  · intro looked
    rw [reading_replay_append, reading_replay_append]
    refine Reading.exists_reports reports resolved relative extracted fun function mem => ?_
    obtain ⟨covered, answered⟩ := looked function mem
    rw [ask_eq_answer wf] at answered
    obtain ⟨covered', found, _⟩ := Outcome.map_eq_ok.mp answered
    exact ⟨covered', found⟩
  · intro function mem fault answered
    rw [reading_replay_append, reading_replay_append]
    rw [ask_eq_answer wf] at answered
    have failed := Outcome.map_eq_error.mp answered
    obtain ⟨whole, each⟩ := Reading.checks_eq_error reports resolved relative extracted mem failed
    obtain ⟨home, again⟩ := exists_resolveFrom relative
    exact ⟨whole, each, fun typed => Reading.exists_unreadable wf typed again failed⟩

/-- A project without tests, in which a module is a link to a test file of another project. -/
def aliased : Disk :=
  ⟨⟨[(["p"], .directory), (["p", "a.ts"], .link "../q/x.test.ts"), (["q"], .directory),
    (["q", "x.test.ts"], .file [])]⟩, []⟩

/-- A run on the aliased project that warns about exports which are not checked. -/
def aliasedRun : Run := ⟨"/p", Config.default.set "report_unchecked_exports" (.bool true)⟩

/-- The aliased project has no test files. -/
lemma files_aliased : (aliasedRun.reading aliased .empty).files = .ok [] := by
  have query : aliasedRun.query = .ok Discovery.defaultQuery := rfl
  have names : aliased.tree.namesIn ["p"] = ["a.ts"] := List.mergeSort_singleton _
  have found : Discovery.Visit.findings aliased.tree Discovery.defaultQuery ⟨["p"], ["p"]⟩
      = [.nothing] := by
    rw [Discovery.Visit.findings, names]
    rfl
  have listed := diskFiles_flat query found rfl rfl rfl rfl rfl
  exact listed

/-- Nothing is covered in the aliased project. -/
lemma isCovered_aliased {moduleFile : String} {place : Path}
    (resolved : aliased.resolveFrom aliasedRun.root moduleFile = .ok place) (name : String) :
    (aliasedRun.reading aliased .empty).isCovered aliasedRun aliased name moduleFile
      = .ok false := by
  have hasIndex : aliasedRun.config.get "index_name" = .ok (.string "index") := rfl
  rw [Reading.isCovered, resolved, Outcome.ok_bind, hasIndex, Outcome.ok_bind, files_aliased]
  rfl

/-- A run on the aliased project answers that nothing is covered. -/
lemma ask_aliased {moduleFile : String} {place : Path}
    (resolved : aliased.resolveFrom aliasedRun.root moduleFile = .ok place) (name : String) :
    aliasedRun.ask aliased .empty (.isCovered name moduleFile) = .ok (.verdict false) := by
  rw [ask_eq_answer Memo.wellFormed_empty, Reading.answer, isCovered_aliased resolved]
  rfl

/-- A text with an export that is not checked before one that no test covers. -/
def mixedSource : Bytes := Text.encode "export default 1\nexport function f() {}"

/-- The tree of the mixed text. -/
def mixedTree : Node := (Program.parse .typescript mixedSource).root

/-- The mixed text exports a function and a default. -/
lemma exportsOf_mixed : aliasedRun.exportsOf mixedTree
    = .ok ⟨[⟨"f", .namedFunction, 2, 1⟩], [⟨"default", "default export", 1, 1⟩]⟩ := by
  decide +kernel

/-- The run on the aliased project reports in English and warns. -/
lemma reports_aliased : aliasedRun.Reports "en" true :=
  reports_of_wellTyped (by decide)

/-- The two reports about a module that is not a link hold the same diagnostics. -/
theorem checkModule_agrees_mixed :
    ∃ report parts,
      aliasedRun.ask aliased .empty (.checkModule "/p/m.ts" (some mixedSource))
        = .ok (.diagnostics report) ∧
      ((aliasedRun.checkExports aliased "/p/m.ts" mixedTree.symbolTable
        mixedTree.placedExports).runWith .empty).1 = .ok parts ∧
      report.Perm parts ∧ Diagnostic.sort report = Diagnostic.sort parts := by
  have resolved : aliased.resolveFrom aliasedRun.root "/p/m.ts" = .ok ["p", "m.ts"] := rfl
  have checked : aliasedRun.shouldCheck aliased (Path.render ["p", "m.ts"]) = .ok true := by
    decide +kernel
  obtain ⟨_, _, _, whole, each, agree, _⟩ := checkModule_agrees aliasedRun aliased [] [] []
    reports_aliased resolved checked exportsOf_mixed
  obtain ⟨report, parts, rfl, rfl, perm, _, sorted⟩ := agree fun function _ =>
    ⟨false, ask_aliased resolved function.name⟩
  exact ⟨report, parts, whole (some mixedSource) _ _ rfl rfl rfl, each, perm,
    sorted (by decide +kernel)⟩

/-- A run whose configuration names no language. -/
def muteRun : Run := ⟨"/p", Config.default.filter fun entry => entry.1 != "locale"⟩

/-- The two ways to check differ where a path that is checked is a link to a test file, which is not
checked as a whole. They differ where no language is named: only a check as a whole asks for it when
there are no exports. -/
theorem checkModule_differs :
    (aliasedRun.shouldCheck aliased "/p/a.ts" = .ok true ∧
      (∀ name, aliasedRun.ask aliased .empty (.isCovered name "/p/a.ts") = .ok (.verdict false)) ∧
      aliasedRun.ask aliased .empty (.checkModule "/p/a.ts" (some mixedSource))
        = .ok (.diagnostics []) ∧
      ∃ parts, ((aliasedRun.checkExports aliased "/p/a.ts" mixedTree.symbolTable
          mixedTree.placedExports).runWith .empty).1 = .ok parts ∧
        ¬ ([] : List Diagnostic).Perm parts) ∧
    (muteRun.shouldCheck aliased "/p/m.ts" = .ok true ∧
      muteRun.exportsOf (Program.parse .typescript []).root = .ok Exports.none ∧
      muteRun.ask aliased .empty (.checkModule "/p/m.ts" (some []))
        = .error (.missingKey "locale") ∧
      ((muteRun.checkExports aliased "/p/m.ts" (Program.parse .typescript []).root.symbolTable
        (Program.parse .typescript []).root.placedExports).runWith .empty).1 = .ok []) := by
  have behind : aliased.resolveFrom aliasedRun.root "/p/a.ts" = .ok ["q", "x.test.ts"] := by
    decide +kernel
  have again : aliased.resolveFrom aliasedRun.root (Path.render ["q", "x.test.ts"])
      = .ok ["q", "x.test.ts"] := rfl
  have unchecked : aliasedRun.shouldCheck aliased (Path.render ["q", "x.test.ts"])
      = .ok false := rfl
  have relative : aliased.relativeTo aliasedRun.root (Path.render ["q", "x.test.ts"])
      = .ok "../q/x.test.ts" := rfl
  have here : aliased.resolveFrom muteRun.root "/p/m.ts" = .ok ["p", "m.ts"] := rfl
  have shown : aliased.relativeTo muteRun.root (Path.render ["p", "m.ts"]) = .ok "m.ts" := rfl
  have checked : muteRun.shouldCheck aliased (Path.render ["p", "m.ts"]) = .ok true := by
    decide +kernel
  have nothing : muteRun.exportsOf (Program.parse .typescript []).root = .ok Exports.none := by
    decide +kernel
  have noStatements : (Program.parse .typescript []).root.placedExports = [] := by decide +kernel
  -- Only a check as a whole asks whether the file behind the link is one to check.
  refine ⟨⟨by decide +kernel, ask_aliased behind, ?_, ?_⟩, checked, nothing, ?_, ?_⟩
  · exact ask_checkModule_eq_nil Memo.wellFormed_empty behind unchecked _
  · obtain ⟨_, _, agree, _⟩ := Reading.exists_agree reports_aliased behind relative
      exportsOf_mixed (aliasedRun.reading aliased .empty)
    obtain ⟨parts, each, perm, _⟩ := agree.exists_report
      (Reading.missingTests_eq _ _ (isCovered_aliased again) _)
    refine ⟨parts, ?_, fun empty => ?_⟩
    · rw [(gives_checkExports gives_testFiles gives_importFacts _).outcome_eq
        ⟨Memo.wellFormed_empty, rfl⟩, each]
    · exact absurd (perm.trans empty.symm).eq_nil (by simp)
  · have noLocale : muteRun.config.get "locale" = .error (.missingKey "locale") := rfl
    rw [ask_checkModule_eq Memo.wellFormed_empty here checked rfl rfl, Reading.checkTree, nothing,
      Outcome.ok_bind, Reading.diagnose, shown, Outcome.ok_bind, noLocale]
    rfl
  · rw [noStatements]
    rfl

end Run

end ExportCover
