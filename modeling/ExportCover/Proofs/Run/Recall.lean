import ExportCover.Proofs.Run.Memo

/-!
# What a memo recalls

A memo alone, without a disk, is a reading too: it knows the test files and the imports that were
learned and nothing else. An answer about coverage that a run has given can be recalled, that is,
read off the memo it leaves (`Run.recollection_isCovered`). A search that ends at its first hit
learns the imports of the files up to there, and these are the ones that the recollection asks for.
What is recalled is read again from every larger memo and on every disk
(`Reading.Within.isCovered`).
-/

namespace ExportCover

namespace Specifier

open ExportCover.Path

/-- Between two files that are named from the root the working directory plays no part. -/
lemma relativePath_eq {cwd : Path} {testFile moduleFile : String}
    (testRooted : isAbsolute testFile) (moduleRooted : isAbsolute moduleFile) :
    relativePath cwd testFile moduleFile = .ok (foldSeparators (renderNames
      (relative (ofText [] moduleFile) (ofText [] (directoryPart testFile))))) := by
  have named : moduleFile ≠ "" := by
    rintro rfl
    exact absurd moduleRooted (by decide)
  have directoryRooted := isAbsolute_directoryPart testRooted
  simp [relativePath, named, ofText, moduleRooted, directoryRooted]

end Specifier

/-- The target of two files that are named from the root is the same on every disk. -/
lemma Run.target_eq (run : Run) (disk later : Disk) {testFile moduleFile : String}
    (testRooted : Path.isAbsolute testFile) (moduleRooted : Path.isAbsolute moduleFile) :
    run.target later testFile moduleFile = run.target disk testFile moduleFile := by
  rw [target, target, Specifier.relativePath_eq testRooted moduleRooted,
    Specifier.relativePath_eq testRooted moduleRooted]

namespace Reading

/-- What one reading answers another one answers alike. -/
structure Within (known whole : Reading) : Prop where
  files : ∀ {files}, known.files = .ok files → whole.files = .ok files
  imports : ∀ {file facts}, known.imports file = .ok facts → whole.imports file = .ok facts

/-- The test files are named from the root. -/
def Rooted (reading : Reading) : Prop :=
  ∀ {files}, reading.files = .ok files → ∀ file ∈ files, Path.isAbsolute file

namespace Within

variable {known whole : Reading} {run : Run} {disk later : Disk}

/-- A covering file that is known is found, on whatever disk. -/
lemma coveringFile (within : known.Within whole) {index name moduleFile found}
    (moduleRooted : Path.isAbsolute moduleFile) {files : List String}
    (rooted : ∀ file ∈ files, Path.isAbsolute file)
    (answered : known.coveringFile run disk index name moduleFile files = .ok found) :
    whole.coveringFile run later index name moduleFile files = .ok found := by
  induction files with
  | nil => exact answered
  | cons testFile rest ih =>
    obtain ⟨target, spelled, answered⟩ := Outcome.bind_eq_ok.mp answered
    obtain ⟨facts, read, answered⟩ := Outcome.bind_eq_ok.mp answered
    obtain ⟨hit, compared, answered⟩ := Outcome.bind_eq_ok.mp answered
    have spelled' := run.target_eq disk later (rooted testFile List.mem_cons_self) moduleRooted
    rw [Reading.coveringFile, spelled', spelled, Outcome.ok_bind, within.imports read,
      Outcome.ok_bind, compared, Outcome.ok_bind]
    cases hit with
    | true => exact answered
    | false => exact ih (fun file mem => rooted file (List.mem_cons_of_mem _ mem)) answered

/-- Coverage that is known is found, on every disk where the module is in the same place. -/
lemma isCovered (within : known.Within whole) (rooted : known.Rooted) {name moduleFile covered}
    (unmoved : later.resolveFrom run.root moduleFile = disk.resolveFrom run.root moduleFile)
    (answered : known.isCovered run disk name moduleFile = .ok covered) :
    whole.isCovered run later name moduleFile = .ok covered := by
  obtain ⟨place, resolved, answered⟩ := Outcome.bind_eq_ok.mp answered
  obtain ⟨index, named, answered⟩ := Outcome.bind_eq_ok.mp answered
  obtain ⟨files, found, answered⟩ := Outcome.bind_eq_ok.mp answered
  obtain ⟨testFile?, searched, answered⟩ := Outcome.bind_eq_ok.mp answered
  have searched' : whole.coveringFile run later index name (Path.render place) files
      = .ok testFile? :=
    within.coveringFile (Path.isAbsolute_render place) (rooted found) searched
  rw [Reading.isCovered, unmoved, resolved, Outcome.ok_bind, named, Outcome.ok_bind,
    within.files found, Outcome.ok_bind, searched', Outcome.ok_bind]
  exact answered

end Within

end Reading

namespace Memo

/-- What a memo knows by itself. What was not learned is missing. -/
def recollection (memo : Memo) : Reading where
  files := match memo.testFiles? with
    | some files => .ok files
    | none => .error .illTyped
  imports file := match memo.imports.lookup file with
    | some facts => .ok facts
    | none => .error .illTyped

variable {memo : Memo}

/-- The test files that are recalled are those that the memo holds. -/
lemma recollection_files {files} :
    memo.recollection.files = .ok files ↔ memo.testFiles? = some files := by
  simp only [recollection]
  cases memo.testFiles? <;> simp

/-- The imports that are recalled are those that the memo holds. -/
lemma recollection_imports {file facts} :
    memo.recollection.imports file = .ok facts ↔ memo.imports.lookup file = some facts := by
  simp only [recollection]
  cases memo.imports.lookup file <;> simp

/-- What a well-formed memo recalls is named from the root. -/
lemma WellFormed.rooted_recollection (wf : memo.WellFormed) : memo.recollection.Rooted :=
  fun found => wf.rooted (recollection_files.mp found)

/-- What is recalled is read again later, whatever the disk is then. -/
lemma Grows.within {memo' : Memo} (grows : memo.Grows memo') (run : Run) (disk : Disk) :
    memo.recollection.Within (run.reading disk memo') := by
  refine ⟨fun known => ?_, fun known => ?_⟩
  · simp [Run.reading, grows.files (recollection_files.mp known)]
  · simp [Run.reading, grows.imports (recollection_imports.mp known)]

end Memo

namespace Run

open Work

variable {run : Run} {disk : Disk} {trace trace' : Trace}

/-- A search for a covering file loses nothing. -/
lemma evolves_coveringFile {index name moduleFile files outcome}
    (searched : (run.coveringFile disk index name moduleFile files).exec trace
      = (outcome, trace')) :
    trace.memo.Evolves trace'.memo := by
  have moves : Moves Memo.Evolves (run.coveringFile disk index name moduleFile files) :=
    moves_coveringFile Memo.Evolves.refl Memo.Evolves.trans (moves_importFacts run disk) files
  have moved := moves trace
  rwa [searched] at moved

/-- A search for a covering file that succeeds can be recalled. -/
lemma recollection_coveringFile (wf : trace.memo.WellFormed) {index name moduleFile files found}
    (answered : (run.coveringFile disk index name moduleFile files).exec trace
      = (.ok found, trace')) :
    trace'.memo.recollection.coveringFile run disk index name moduleFile files = .ok found := by
  induction files generalizing trace with
  | nil =>
    cases answered
    rfl
  | cons testFile rest ih =>
    obtain ⟨target, spelled, answered⟩ := exec_lift_bind_eq_ok.mp answered
    obtain ⟨facts, mid, read, answered⟩ := exec_bind_eq_ok.mp answered
    obtain ⟨hit, compared, answered⟩ := exec_lift_bind_eq_ok.mp answered
    have learned := lookup_exec_importFacts wf (congrArg Prod.fst read)
    obtain ⟨wf', _⟩ := moves_importFacts run disk testFile _ wf
    rw [read] at learned wf'
    -- Whether the search stops here or goes on, the imports of this file stay known.
    suffices known : trace'.memo.imports.lookup testFile = some facts by
      rw [Reading.coveringFile, spelled, Outcome.ok_bind, Memo.recollection_imports.mpr known,
        Outcome.ok_bind, compared, Outcome.ok_bind]
      cases hit with
      | true =>
        cases answered
        rfl
      | false => exact ih wf' answered
    cases hit with
    | true =>
      cases answered
      exact learned
    | false =>
      obtain ⟨_, grows⟩ := evolves_coveringFile answered wf'
      exact grows.imports learned

/-- An answer about coverage can be recalled. -/
lemma recollection_isCovered (wf : trace.memo.WellFormed) {name moduleFile covered}
    (answered : (run.isCovered disk name moduleFile).exec trace = (.ok covered, trace')) :
    trace'.memo.recollection.isCovered run disk name moduleFile = .ok covered := by
  obtain ⟨place, resolved, answered⟩ := exec_lift_bind_eq_ok.mp answered
  obtain ⟨index, named, answered⟩ := exec_lift_bind_eq_ok.mp answered
  obtain ⟨files, mid, found, answered⟩ := exec_bind_eq_ok.mp answered
  obtain ⟨testFile?, last, searched, answered⟩ := exec_bind_eq_ok.mp answered
  have learned := testFiles?_exec_testFiles (congrArg Prod.fst found)
  obtain ⟨wf', _⟩ := moves_testFiles run disk _ wf
  rw [found] at learned wf'
  obtain ⟨_, grows⟩ := evolves_coveringFile searched wf'
  have known := Memo.recollection_files.mpr (grows.files learned)
  have searched' := recollection_coveringFile wf' searched
  suffices same : last.memo = trace'.memo ∧ testFile?.isSome = covered by
    rw [← same.1, Reading.isCovered, resolved, Outcome.ok_bind, named, Outcome.ok_bind, known,
      Outcome.ok_bind, searched', Outcome.ok_bind, same.2]
    rfl
  cases testFile? with
  | none =>
    cases answered
    exact ⟨rfl, rfl⟩
  | some testFile =>
    cases answered
    exact ⟨rfl, rfl⟩

end Run

end ExportCover
