import ExportCover.Proofs.Run.History
import ExportCover.Proofs.Run.Search

/-!
# What a report is made of

A check of a module is a check of the tree of its text, at the place where the module is found
(`Run.ask_checkModule_eq`). If all lookups succeed the report names each function that is not
covered (`Reading.missingTests_eq`). Whether one is covered is a question about the imports of the
test files alone (`Run.Imports`, `Run.imports_iff_any`).
-/

namespace ExportCover

namespace Run

variable {run : Run}

/-- The exports that are not checked are reported if the configuration says so. -/
lemma uncheckedExports_eq (typed : run.config.WellTyped) (file language : String)
    (unchecked : List UncheckedExport) :
    run.uncheckedExports file (.string language) unchecked
      = .ok (if run.config.switchOf "report_unchecked_exports" then
          unchecked.map (Diagnostic.unchecked · file language) else []) := by
  rw [uncheckedExports, typed.isOn_eq rfl, Outcome.ok_bind]
  cases run.config.switchOf "report_unchecked_exports" with
  | false => rfl
  | true => exact List.mapM_pure

/-- The exports of a program are collected under the text that is configured as the marker. -/
lemma exportsOf_of_get {marker : String}
    (hasMarker : run.config.get "ignore_marker" = .ok (.string marker)) (program : Node) :
    run.exportsOf program = program.exports marker := by
  rw [exportsOf, hasMarker]
  rfl

/-- The exports of a program are collected under the marker of the configuration. -/
lemma exportsOf_eq (typed : run.config.WellTyped) (program : Node) :
    run.exportsOf program = program.exports (run.config.textOf "ignore_marker") :=
  exportsOf_of_get (typed.get_text rfl) program

/-- A module that is checked has a path relative to the root. -/
lemma exists_relativeTo {disk : Disk} {moduleFile : String}
    (checked : run.shouldCheck disk moduleFile = .ok true) :
    ∃ shown, disk.relativeTo run.root moduleFile = .ok shown := by
  obtain ⟨suffixes, _, checked⟩ := Outcome.bind_eq_ok.mp checked
  obtain ⟨isTest, _, checked⟩ := Outcome.bind_eq_ok.mp checked
  cases isTest with
  | true => cases checked
  | false =>
    obtain ⟨shown, found, _⟩ := Outcome.bind_eq_ok.mp checked
    exact ⟨shown, found⟩

/-- What has a path relative to the root can be resolved. -/
lemma exists_resolveFrom {disk : Disk} {root shown : String} {place : Path}
    (relative : disk.relativeTo root (Path.render place) = .ok shown) :
    ∃ home, disk.resolveFrom root (Path.render place) = .ok home := by
  obtain ⟨_, _, relative⟩ := Outcome.bind_eq_ok.mp relative
  obtain ⟨home, resolved, _⟩ := Outcome.bind_eq_ok.mp relative
  rw [Disk.resolveFrom, Disk.absolute, if_pos (Path.isAbsolute_render place)]
  exact ⟨home, resolved⟩

end Run

namespace Reading

variable {reading : Reading} {run : Run} {disk : Disk} {moduleFile : String}

/-- The functions that are not covered are reported, one after the other. -/
lemma missingTests_eq {covered : String → Bool} (file language : String)
    (coverage : ∀ name, reading.isCovered run disk name moduleFile = .ok (covered name))
    (functions : List ExportedFunction) :
    reading.missingTests run disk moduleFile file (.string language) functions
      = .ok ((functions.filter fun function => !covered function.name).map
          (Diagnostic.missingTest · file language)) := by
  induction functions with
  | nil => rfl
  | cons function rest ih =>
    rw [missingTests, coverage, Outcome.ok_bind, List.filter_cons]
    cases covered function.name with
    | true => exact ih
    | false =>
      rw [ih]
      rfl

end Reading

namespace Run

variable {run : Run} {disk : Disk} {memo : Memo}

/-- The test files of a run are named from the root. -/
lemma rooted_reading (wf : memo.WellFormed) : (run.reading disk memo).Rooted := by
  intro files found
  rw [reading] at found
  cases known : memo.testFiles? with
  | some files' =>
    simp only [known] at found
    cases found
    exact wf.rooted known
  | none =>
    simp only [known] at found
    exact fun file mem => isAbsolute_of_mem_diskFiles found mem

/-- Some test file imports the name through a specifier that spells the module as it is spelled in
that file. -/
def Imports (run : Run) (disk : Disk) (files : List String) (facts : String → List ImportFact)
    (moduleFile name : String) : Prop :=
  ∃ testFile ∈ files, ∃ fact ∈ facts testFile, name ∈ fact.bound.names ∧
    ∃ target, run.target disk testFile moduleFile = .ok target ∧
      Specifier.sameModule (run.config.textOf "index_name") fact.specifier target

/-- The search decides whether some test file imports the name. -/
lemma imports_iff_any {extensions : List String} {indexName : String}
    (hasExtensions : run.config.get "extensions" = .ok (.texts extensions))
    (hasIndex : run.config.get "index_name" = .ok (.string indexName)) {files : List String}
    {facts : String → List ImportFact} {moduleFile name : String}
    (rooted : ∀ testFile ∈ files, Path.isAbsolute testFile)
    (moduleRooted : Path.isAbsolute moduleFile) :
    run.Imports disk files facts moduleFile name ↔
      files.any fun testFile => (facts testFile).any (·.brings indexName
        (Specifier.spelling extensions indexName testFile moduleFile) name) := by
  simp only [Imports, Config.textOf_eq hasIndex, List.any_eq_true, ImportFact.brings,
    Bool.and_eq_true, List.contains_iff_mem]
  constructor
  · rintro ⟨testFile, mem, fact, factMem, named, target, spelled, same⟩
    rw [target_eq_spelling disk hasExtensions hasIndex (rooted testFile mem)
      moduleRooted] at spelled
    cases spelled
    exact ⟨testFile, mem, fact, factMem, same, named⟩
  · rintro ⟨testFile, mem, fact, factMem, same, named⟩
    exact ⟨testFile, mem, fact, factMem, named, _, target_eq_spelling disk hasExtensions
      hasIndex (rooted testFile mem) moduleRooted, same⟩

/-- A check of a module is a check of the tree of its text. -/
lemma ask_checkModule_eq (wf : memo.WellFormed) {moduleFile place source? grammar source}
    (resolved : disk.resolveFrom run.root moduleFile = .ok place)
    (checked : run.shouldCheck disk (Path.render place) = .ok true)
    (hasGrammar : Grammar.ofPath (Path.render place) = .ok grammar)
    (hasSource : source?.elim (disk.read (Path.render place)) .ok = .ok source) :
    run.ask disk memo (.checkModule moduleFile source?)
      = .diagnostics <$> (run.reading disk memo).checkTree run disk (Path.render place)
          (Program.parse grammar source).root := by
  rw [ask_eq_answer wf, Reading.answer, Reading.checkModule, resolved, Outcome.ok_bind, checked,
    Outcome.ok_bind, hasGrammar]
  simp only [Bool.not_true, Bool.false_eq_true, if_false, Outcome.ok_bind, hasSource]

/-- Nothing is reported about a module whose place is not one to check. -/
lemma ask_checkModule_eq_nil (wf : memo.WellFormed) {moduleFile place}
    (resolved : disk.resolveFrom run.root moduleFile = .ok place)
    (unchecked : run.shouldCheck disk (Path.render place) = .ok false) (source? : Option Bytes) :
    run.ask disk memo (.checkModule moduleFile source?) = .ok (.diagnostics []) := by
  rw [ask_eq_answer wf, Reading.answer, Reading.checkModule, resolved, Outcome.ok_bind, unchecked]
  rfl

/-- A run over the sample project finds its test file. -/
lemma testFiles_sample :
    sampleRun.ask sampleDisk .empty .testFiles = .ok (.files ["/test/lib.test.ts"]) := by
  rw [ask_eq_answer Memo.wellFormed_empty, Reading.answer, files_sample]
  rfl

/-- A run over the sample project reads the imports of its test file. -/
lemma importFacts_sample : ∀ testFile ∈ ["/test/lib.test.ts"],
    sampleRun.ask sampleDisk .empty (.importFacts testFile)
      = .ok (.facts [⟨"../lib", ⟨["f"], none, none⟩⟩]) := by
  intro testFile mem
  rw [ask_eq_answer Memo.wellFormed_empty, Reading.answer, imports_sample testFile mem]
  rfl

end Run

end ExportCover
