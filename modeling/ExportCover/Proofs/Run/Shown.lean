import ExportCover.Proofs.FileTree.Normal
import ExportCover.Proofs.Path.Relative
import ExportCover.Proofs.Run.Work
import ExportCover.Run.Check

/-!
# How modules are shown

A module is shown as the way to it from the root of the run, and a canonical module can be found
again from that (`Disk.IsCanonical.exists_shown`). All diagnostics of a report are about the file
that is shown (`ReportsOn.file_eq`), so that the reports on two modules have no file in common.
-/

namespace ExportCover

namespace Disk

variable {disk : Disk} {base text other : String}

/-- A canonical text is shown as the way to it, which is what stands behind the root on it if it
lies there, and the way that is put behind the root leads back to it. -/
lemma IsCanonical.exists_shown (rooted : disk.IsCanonical base) (canonical : disk.IsCanonical text)
    (plain : '\\' ∉ text.toList) : ∃ shown, disk.relativeTo base text = .ok shown ∧
      Path.between disk.cwd text base = .ok shown ∧
      (∀ names, Path.names text = Path.names base ++ names → shown = Path.renderNames names) ∧
      Path.render (Path.ofText disk.cwd (Path.join base shown)) = text := by
  obtain ⟨root, resolvedBase, rfl, normalBase⟩ := rooted.exists_place
  obtain ⟨place, resolved, rfl, normal⟩ := canonical.exists_place
  have folded : Specifier.foldSeparators (Path.renderNames (Path.relative place root))
      = Path.renderNames (Path.relative place root) :=
    Specifier.foldSeparators_eq_self (Path.notMem_renderNames_relative (by decide) (by decide)
      (Path.notMem_of_render plain) root)
  refine ⟨Path.renderNames (Path.relative place root), ?_,
    Path.between_render normal normalBase, fun names below => ?_, ?_⟩
  · rw [relativeTo_eq, resolvedBase, resolved, ← folded]
    rfl
  · rw [Path.names_render normal, Path.names_render normalBase] at below
    rw [below, Path.relative_append]
  · rw [Path.ofText_join normal normalBase]

/-- Two canonical texts that are shown alike are equal. -/
lemma IsCanonical.eq_of_shown (rooted : disk.IsCanonical base) (canonical : disk.IsCanonical text)
    (plain : '\\' ∉ text.toList) (canonical' : disk.IsCanonical other)
    (plain' : '\\' ∉ other.toList)
    (alike : disk.relativeTo base text = disk.relativeTo base other) : text = other := by
  obtain ⟨shown, relative, -, -, back⟩ := rooted.exists_shown canonical plain
  obtain ⟨shown', relative', -, -, back'⟩ := rooted.exists_shown canonical' plain'
  cases (relative.symm.trans alike).trans relative'
  exact back.symm.trans back'

end Disk

namespace Run

variable {run : Run} {disk : Disk} {moduleFile file : String} {report : List Diagnostic}

/-- The errors about untested functions are about the file that is given. -/
lemma file_of_missingTests {locale : Json} {functions : List ExportedFunction}
    {trace trace' : Trace}
    (reported : (run.missingTests disk moduleFile file locale functions).exec trace
      = (.ok report, trace')) : ∀ diagnostic ∈ report, diagnostic.file = file := by
  induction functions generalizing report trace with
  | nil =>
    cases reported
    exact fun _ mem => absurd mem List.not_mem_nil
  | cons function rest ih =>
    rw [missingTests] at reported
    obtain ⟨covered, mid, _, reported⟩ := Work.exec_bind_eq_ok.mp reported
    cases covered with
    | true => exact ih reported
    | false =>
      obtain ⟨language, _, reported⟩ := Work.exec_lift_bind_eq_ok.mp reported
      obtain ⟨others, _, there, reported⟩ := Work.exec_bind_eq_ok.mp reported
      cases reported
      exact List.forall_mem_cons.mpr ⟨rfl, ih there⟩

/-- The warnings about exports that are not checked are about the file that is given. -/
lemma file_of_uncheckedExports {locale : Json} {unchecked : List UncheckedExport}
    (warned : run.uncheckedExports file locale unchecked = .ok report) :
    ∀ diagnostic ∈ report, diagnostic.file = file := by
  intro diagnostic mem
  obtain ⟨warns, _, warned⟩ := Outcome.bind_eq_ok.mp warned
  cases warns with
  | false =>
    cases warned
    cases mem
  | true =>
    obtain ⟨exported, _, made⟩ := (Outcome.mem_of_mapM_eq_ok warned diagnostic).mp mem
    obtain ⟨language, _, same⟩ := Outcome.bind_eq_ok.mp made
    cases same
    rfl

/-- All diagnostics about a module name it as it is shown. -/
lemma file_of_diagnose {exports : Exports} {trace trace' : Trace}
    (diagnosed : (run.diagnose disk exports moduleFile).exec trace = (.ok report, trace')) :
    ∀ diagnostic ∈ report, disk.relativeTo run.root moduleFile = .ok diagnostic.file := by
  obtain ⟨file, relative, diagnosed⟩ := Work.exec_lift_bind_eq_ok.mp diagnosed
  obtain ⟨locale, _, diagnosed⟩ := Work.exec_lift_bind_eq_ok.mp diagnosed
  obtain ⟨missing, _, reported, diagnosed⟩ := Work.exec_bind_eq_ok.mp diagnosed
  obtain ⟨unchecked, warned, diagnosed⟩ := Work.exec_lift_bind_eq_ok.mp diagnosed
  cases diagnosed
  intro diagnostic mem
  obtain mem | mem := List.mem_append.mp mem
  · rw [file_of_missingTests reported diagnostic mem, relative]
  · rw [file_of_uncheckedExports warned diagnostic mem, relative]

/-- A report that a check of a module or of one of its export statements gives, whatever the run
has learned before. -/
inductive ReportsOn (run : Run) (disk : Disk) (moduleFile : String) : List Diagnostic → Prop where
  | module {report source? memo}
    (checked : ((run.checkModule disk moduleFile source?).runWith memo).1 = .ok report) :
    ReportsOn run disk moduleFile report
  | statement {report symbols preceding statement memo}
    (checked : ((run.checkExport disk moduleFile symbols preceding statement).runWith memo).1
      = .ok report) : ReportsOn run disk moduleFile report

/-- All diagnostics of a report name one module, as its place is shown. -/
lemma ReportsOn.exists_file (reports : run.ReportsOn disk moduleFile report) :
    ∃ place, disk.resolveFrom run.root moduleFile = .ok place ∧ ∀ diagnostic ∈ report,
      disk.relativeTo run.root (Path.render place) = .ok diagnostic.file := by
  cases reports with
  | @module source? memo checked =>
    obtain ⟨trace, done⟩ : ∃ trace, (run.checkModule disk moduleFile source?).exec ⟨memo, []⟩
        = (.ok report, trace) := ⟨_, Prod.ext checked rfl⟩
    obtain ⟨place, resolved, done⟩ := Work.exec_lift_bind_eq_ok.mp done
    obtain ⟨isChecked, _, done⟩ := Work.exec_lift_bind_eq_ok.mp done
    refine ⟨place, resolved, ?_⟩
    cases isChecked with
    | false =>
      cases done
      exact fun _ mem => absurd mem List.not_mem_nil
    | true =>
      obtain ⟨grammar, _, done⟩ := Work.exec_lift_bind_eq_ok.mp done
      -- The text that is given and the text that is read are checked in the same way.
      cases source?
      all_goals
        obtain ⟨source, _, _, done⟩ := Work.exec_bind_eq_ok.mp done
        obtain ⟨diagnostics, _, checked, done⟩ := Work.exec_bind_eq_ok.mp done
        obtain ⟨exports, _, diagnosed⟩ := Work.exec_lift_bind_eq_ok.mp checked
        cases done
        exact file_of_diagnose diagnosed
  | @statement symbols preceding statement memo checked =>
    obtain ⟨trace, done⟩ : ∃ trace,
        (run.checkExport disk moduleFile symbols preceding statement).exec ⟨memo, []⟩
          = (.ok report, trace) := ⟨_, Prod.ext checked rfl⟩
    obtain ⟨place, resolved, done⟩ := Work.exec_lift_bind_eq_ok.mp done
    obtain ⟨value, _, done⟩ := Work.exec_lift_bind_eq_ok.mp done
    obtain ⟨marker, _, done⟩ := Work.exec_lift_bind_eq_ok.mp done
    refine ⟨place, resolved, ?_⟩
    cases isMarked : statement.isMarked marker preceding with
    | true =>
      rw [isMarked] at done
      cases done
      exact fun _ mem => absurd mem List.not_mem_nil
    | false =>
      rw [isMarked] at done
      obtain ⟨exports, _, diagnosed⟩ := Work.exec_lift_bind_eq_ok.mp done
      exact file_of_diagnose diagnosed

/-- All diagnostics of a report are about the file as which its module is shown. -/
lemma ReportsOn.file_eq {text : String} (reports : run.ReportsOn disk moduleFile report)
    (resolved : Path.render <$> disk.resolveFrom run.root moduleFile = .ok text) :
    ∀ diagnostic ∈ report, disk.relativeTo run.root text = .ok diagnostic.file := by
  obtain ⟨place, found, files⟩ := reports.exists_file
  obtain ⟨place', found', rfl⟩ := Outcome.map_eq_ok.mp resolved
  cases found.symm.trans found'
  exact files

/-- How canonical modules are shown from a canonical root. The text is the way from the root,
whether the module lies below it or not, and leads back to the module. So different modules are never
shown alike, neither to an ignore pattern nor as the file of a diagnostic. -/
theorem shown_faithful (disk : Disk) {base : String} (rooted : disk.IsCanonical base) :
    (∀ text, disk.IsCanonical text → '\\' ∉ text.toList → ∃ shown,
      disk.relativeTo base text = .ok shown ∧ Path.between disk.cwd text base = .ok shown ∧
      (∀ names, Path.names text = Path.names base ++ names → shown = Path.renderNames names) ∧
      Path.render (Path.ofText disk.cwd (Path.join base shown)) = text) ∧
    (∀ text other, disk.IsCanonical text → '\\' ∉ text.toList → disk.IsCanonical other →
      '\\' ∉ other.toList → disk.relativeTo base text = disk.relativeTo base other → text = other) ∧
    (∀ run run' : Run, run.root = base → run'.root = base → ∀ moduleFile moduleFile' text other,
      Path.render <$> disk.resolveFrom base moduleFile = .ok text →
      Path.render <$> disk.resolveFrom base moduleFile' = .ok other →
      disk.IsCanonical text → '\\' ∉ text.toList → disk.IsCanonical other → '\\' ∉ other.toList →
      text ≠ other → ∀ report report', run.ReportsOn disk moduleFile report →
      run'.ReportsOn disk moduleFile' report' →
      ∀ diagnostic ∈ report, ∀ diagnostic' ∈ report', diagnostic.file ≠ diagnostic'.file) := by
  refine ⟨fun text canonical plain => rooted.exists_shown canonical plain,
    fun text other canonical plain canonical' plain' =>
      rooted.eq_of_shown canonical plain canonical' plain', ?_⟩
  rintro run run' rfl same moduleFile moduleFile' text other resolved resolved' canonical plain
    canonical' plain' apart report report' reports reports' diagnostic mem diagnostic' mem' alike
  have files := reports.file_eq resolved diagnostic mem
  have files' := reports'.file_eq (same ▸ resolved') diagnostic' mem'
  rw [same, ← alike] at files'
  exact apart (rooted.eq_of_shown canonical plain canonical' plain' (files.trans files'.symm))

/-- Two folders with a shared prefix in their names, one of them the root of a run. -/
def neighbours : Disk :=
  ⟨⟨[(["p"], .directory), (["p", "sub"], .directory), (["p", "sub", "a.ts"], .file []),
      (["p", "sub2"], .directory), (["p", "sub2", "a.ts"], .file [])]⟩, ["p"]⟩

/-- A run in one of the folders, which knows already that there are no tests. -/
def neighbourRun : Run := ⟨"/p/sub", Config.default⟩

/-- What that run reports on a module with one function. -/
def reported (moduleFile : String) : Except Fault (List Diagnostic) :=
  ((neighbourRun.checkModule neighbours moduleFile
    (some (Text.encode "export function f() {}"))).runWith ⟨some [], [], .empty⟩).1

/-- The modules in the two folders have the same name and are told apart in the reports. -/
theorem shown_faithful_neighbours :
    neighbours.IsCanonical "/p/sub" ∧ neighbours.IsCanonical "/p/sub/a.ts" ∧
    neighbours.IsCanonical "/p/sub2/a.ts" ∧
    (∃ shown, neighbours.relativeTo "/p/sub" "/p/sub2/a.ts" = .ok shown ∧
      Path.render (Path.ofText ["p"] (Path.join "/p/sub" shown)) = "/p/sub2/a.ts") ∧
    neighbours.relativeTo "/p/sub" "/p/sub/a.ts" ≠ neighbours.relativeTo "/p/sub" "/p/sub2/a.ts" ∧
    ∃ diagnostic diagnostic', reported "/p/sub/a.ts" = .ok [diagnostic] ∧
      reported "/p/sub2/a.ts" = .ok [diagnostic'] ∧ diagnostic.file ≠ diagnostic'.file := by
  have root : neighbours.IsCanonical "/p/sub" := by decide +kernel
  have inside : neighbours.IsCanonical "/p/sub/a.ts" := by decide +kernel
  have outside : neighbours.IsCanonical "/p/sub2/a.ts" := by decide +kernel
  have plain : '\\' ∉ "/p/sub/a.ts".toList := by decide +kernel
  have plain' : '\\' ∉ "/p/sub2/a.ts".toList := by decide +kernel
  have apart : "/p/sub/a.ts" ≠ "/p/sub2/a.ts" := by decide +kernel
  obtain ⟨invertible, injective, reports⟩ := shown_faithful neighbours root
  obtain ⟨shown, relative, -, -, back⟩ := invertible _ outside plain'
  refine ⟨root, inside, outside, ⟨shown, relative, back⟩,
    fun alike => apart (injective _ _ inside plain outside plain' alike),
    .missingTest ⟨"f", .namedFunction, 1, 1⟩ "a.ts" "en",
    .missingTest ⟨"f", .namedFunction, 1, 1⟩ "../sub2/a.ts" "en", ?_⟩
  have first : reported "/p/sub/a.ts"
      = .ok [.missingTest ⟨"f", .namedFunction, 1, 1⟩ "a.ts" "en"] := by decide +kernel
  have second : reported "/p/sub2/a.ts"
      = .ok [.missingTest ⟨"f", .namedFunction, 1, 1⟩ "../sub2/a.ts" "en"] := by decide +kernel
  exact ⟨first, second, reports neighbourRun neighbourRun rfl rfl "/p/sub/a.ts" "/p/sub2/a.ts" _ _
    (by decide +kernel) (by decide +kernel) inside plain outside plain' apart _ _
    (.module first) (.module second) _ (by simp) _ (by simp)⟩

end Run

end ExportCover
