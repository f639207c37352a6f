import ExportCover.Proofs.Path.Names
import ExportCover.Proofs.Run.Reading

/-!
# What a memo holds

The two operations that change a memo are the search for test files and the reading of imports.
Here is what each of them answers and what it leaves behind, as long as no parsed file is left in
the cache: it answers from the memo where the memo knows the answer and from the disk otherwise,
and it learns what it answered unless it failed. From this follow the two facts that every later
statement about runs rests on. `Memo.Grows` relates the memos of a run in time: what was learned
stays. `Run.Shows` fixes what a memo and a disk together show: asking does not change it.
-/

namespace ExportCover

namespace Memo

/-- Between two operations no parsed file is left over, and test files are named from the root. -/
structure WellFormed (memo : Memo) : Prop where
  cache : memo.cache = .empty
  rooted : ∀ {files}, memo.testFiles? = some files → ∀ file ∈ files, Path.isAbsolute file

/-- What is known before is known after. -/
structure Grows (before after : Memo) : Prop where
  files : ∀ {files}, before.testFiles? = some files → after.testFiles? = some files
  imports : ∀ {file facts}, before.imports.lookup file = some facts →
    after.imports.lookup file = some facts

/-- A well-formed memo stays well-formed and loses nothing. -/
def Evolves (before after : Memo) : Prop :=
  before.WellFormed → after.WellFormed ∧ before.Grows after

/-- The empty memo is well-formed. -/
lemma wellFormed_empty : empty.WellFormed :=
  ⟨rfl, nofun⟩

/-- Nothing is lost by doing nothing. -/
lemma Grows.refl (memo : Memo) : memo.Grows memo :=
  ⟨id, id⟩

/-- What grows twice has grown. -/
lemma Grows.trans {a b c : Memo} (first : a.Grows b) (second : b.Grows c) : a.Grows c :=
  ⟨fun known => second.files (first.files known), fun known => second.imports (first.imports known)⟩

/-- Doing nothing keeps a memo well-formed. -/
lemma Evolves.refl (memo : Memo) : memo.Evolves memo :=
  fun wf => ⟨wf, .refl memo⟩

/-- Two operations that keep a memo well-formed do so together. -/
lemma Evolves.trans {a b c : Memo} (first : a.Evolves b) (second : b.Evolves c) : a.Evolves c := by
  intro wf
  obtain ⟨wf', grows⟩ := first wf
  obtain ⟨wf'', grows'⟩ := second wf'
  exact ⟨wf'', grows.trans grows'⟩

/-- The memo after a search for test files. -/
def learnFiles (memo : Memo) : Except Fault (List String) → Memo
  | .ok files => { memo with testFiles? := some files }
  | .error _ => memo

/-- The memo after the imports of a file were read. -/
def learnImports (memo : Memo) (file : String) : Except Fault (List ImportFact) → Memo
  | .ok facts => { memo with imports := memo.imports ++ [(file, facts)] }
  | .error _ => memo

/-- Finding the test files for the first time loses nothing. -/
lemma grows_learnFiles {memo : Memo} {outcome} (unknown : memo.testFiles? = none) :
    memo.Grows (memo.learnFiles outcome) := by
  cases outcome with
  | error fault => exact .refl memo
  | ok files =>
    refine ⟨fun known => ?_, id⟩
    rw [unknown] at known
    cases known

/-- Reading the imports of a file loses nothing. -/
lemma grows_learnImports {memo : Memo} {file outcome} :
    memo.Grows (memo.learnImports file outcome) := by
  cases outcome with
  | error fault => exact .refl memo
  | ok facts =>
    refine ⟨id, fun known => ?_⟩
    rw [learnImports, List.lookup_append, known, Option.some_or]

/-- What was read for the first time is known. -/
lemma lookup_learnImports {memo : Memo} {file facts} (unknown : memo.imports.lookup file = none) :
    (memo.learnImports file (.ok facts)).imports.lookup file = some facts := by
  rw [learnImports, List.lookup_append, unknown, Option.none_or, List.lookup_cons_self]

end Memo

namespace Run

open Work

/-- The test files under the root, as the disk has them now. -/
def diskFiles (run : Run) (disk : Disk) : Except Fault (List String) := do
  let query ← run.query
  let files ← (Discovery.testFiles disk run.root query).1
  return files.map Path.render

/-- The imports of a file, as the disk has it now. -/
def parsedImports (disk : Disk) (file : String) : Except Fault (List ImportFact) := do
  let grammar ← Grammar.ofPath file
  let source ← disk.read file
  let grammar ← Grammar.ofName grammar.name
  return (Program.parse grammar source).root.importFacts

/-- What stands for the imports of a file that cannot be read. -/
def excuse (run : Run) (file : String) (cause : Fault) : Except Fault (List ImportFact) := do
  if ← run.config.isOn "fail_on_unreadable" then .error (.unreadableTest file cause) else return []

/-- The imports of a test file, as the disk has it now; one that cannot be read may be skipped. -/
def diskImports (run : Run) (disk : Disk) (file : String) : Except Fault (List ImportFact) :=
  tryCatch (parsedImports disk file) fun fault =>
    if isUnreadable fault then run.excuse file fault else .error fault

/-- What a run reads: what its memo knows, and the rest from the disk. -/
def reading (run : Run) (disk : Disk) (memo : Memo) : Reading where
  files := match memo.testFiles? with
    | some files => .ok files
    | none => run.diskFiles disk
  imports file := match memo.imports.lookup file with
    | some facts => .ok facts
    | none => run.diskImports disk file

variable {run : Run} {disk : Disk} {memo : Memo} {trace : Trace}

/-- Test files that are known are not looked for again. -/
lemma exec_testFiles_known {files} (known : trace.memo.testFiles? = some files) :
    (run.testFiles disk).exec trace = (.ok files, trace) := by
  rw [testFiles, exec_bind, exec_memo]
  simp only [known, exec_pure]

/-- Test files that are not known yet are looked for on the disk. -/
lemma exec_testFiles_new (unknown : trace.memo.testFiles? = none) :
    ((run.testFiles disk).exec trace).1 = run.diskFiles disk ∧
      ((run.testFiles disk).exec trace).2.memo = trace.memo.learnFiles (run.diskFiles disk) := by
  rw [testFiles, exec_bind, exec_memo, diskFiles]
  simp only [unknown, exec_bind, exec_lift]
  cases run.query with
  | error fault => exact ⟨rfl, rfl⟩
  | ok query =>
    simp only [exec_noteAll, bind, Except.bind]
    obtain ⟨_ | files, notices⟩ := Discovery.testFiles disk run.root query
    case error => exact ⟨rfl, rfl⟩
    case ok => exact ⟨rfl, rfl⟩

/-- A file that is not in the cache is read. -/
lemma getOrParse_empty {file grammar : String} :
    ParseCache.empty.getOrParse disk file grammar = (do
      let source ← disk.read file
      let parsed : ParsedFile := ⟨source, Program.parse (← Grammar.ofName grammar) source⟩
      return (parsed, ⟨[((file, grammar), parsed)]⟩)) := by
  change ParseCache.readWith ParseCache.parseSource disk file grammar >>= _ = _
  simp only [ParseCache.readWith, ParseCache.parseSource]
  cases disk.read file with
  | error fault => rfl
  | ok source =>
    cases Grammar.ofName grammar with
    | error fault => rfl
    | ok language => rfl

/-- Releasing the only file in the cache leaves it empty. -/
lemma release_only {file grammar : String} {parsed : ParsedFile} :
    ParseCache.release ⟨[((file, grammar), parsed)]⟩ file grammar = .empty := by
  simp [ParseCache.release, ParseCache.empty]

/-- Reading imports through an empty cache reads the disk and leaves nothing behind. -/
lemma gives_readImportFacts (clean : memo.cache = .empty) (file : String) :
    Gives (· = memo) (readImportFacts disk file) (parsedImports disk file) := by
  rintro trace rfl
  rw [readImportFacts, exec_bind, exec_lift, parsedImports]
  cases Grammar.ofPath file with
  | error fault => exact ⟨rfl, rfl⟩
  | ok grammar =>
    simp only [exec_bind, exec_memo, exec_lift, clean, getOrParse_empty, Outcome.ok_bind]
    cases disk.read file with
    | error fault => exact ⟨rfl, rfl⟩
    | ok source =>
      cases Grammar.ofName grammar.name with
      | error fault => exact ⟨rfl, rfl⟩
      | ok language =>
        simp only [Outcome.ok_bind, Outcome.pure_eq, exec_modifyMemo]
        split
        all_goals
          simp only [exec_bind, exec_note, exec_modifyMemo, exec_pure, release_only, true_and]
          rw [← clean]

/-- A file that cannot be read is noted at most. -/
lemma gives_unreadable {kept : Memo → Prop} {file cause} :
    Gives kept (run.unreadable file cause) (run.excuse file cause) := by
  rw [unreadable, excuse]
  refine (Gives.lift _).bind fun strict _ => ?_
  cases strict with
  | true => exact .lift (.error (.unreadableTest file cause))
  | false => exact (Gives.note _).bind fun _ _ => .pure []

/-- Imports that are known are not read again. -/
lemma exec_importFacts_known {file facts} (known : trace.memo.imports.lookup file = some facts) :
    (run.importFacts disk file).exec trace = (.ok facts, trace) := by
  rw [importFacts, exec_bind, exec_memo]
  simp only [known, exec_pure]

/-- Imports that are not known yet are read from the disk. -/
lemma exec_importFacts_new (clean : trace.memo.cache = .empty) {file}
    (unknown : trace.memo.imports.lookup file = none) :
    ((run.importFacts disk file).exec trace).1 = run.diskImports disk file ∧
      ((run.importFacts disk file).exec trace).2.memo
        = trace.memo.learnImports file (run.diskImports disk file) := by
  -- A failed read is handled where it left the memo, which is where it started.
  have reads : Gives (· = trace.memo)
      (tryCatch (readImportFacts disk file) fun fault =>
        if isUnreadable fault then run.unreadable file fault else throw fault)
      (run.diskImports disk file) := by
    refine (gives_readImportFacts clean file).tryCatch fun fault _ => ?_
    split
    · exact gives_unreadable
    · exact .lift (.error fault)
  obtain ⟨outcome, same⟩ := reads trace rfl
  rw [importFacts, exec_bind, exec_memo]
  simp only [unknown, exec_bind]
  rw [← outcome, ← same]
  generalize Work.exec _ trace = result
  obtain ⟨_ | facts, trace'⟩ := result
  case error => exact ⟨rfl, rfl⟩
  case ok => exact ⟨rfl, rfl⟩

/-- Test files on the disk are named from the root. -/
lemma isAbsolute_of_mem_diskFiles {files file} (found : run.diskFiles disk = .ok files)
    (mem : file ∈ files) : Path.isAbsolute file := by
  obtain ⟨query, _, found⟩ := Outcome.bind_eq_ok.mp found
  obtain ⟨paths, _, found⟩ := Outcome.bind_eq_ok.mp found
  cases found
  obtain ⟨path, _, rfl⟩ := List.mem_map.mp mem
  exact Path.isAbsolute_render path

/-- Looking for test files loses nothing. -/
lemma moves_testFiles (run : Run) (disk : Disk) : Moves Memo.Evolves (run.testFiles disk) := by
  intro trace wf
  cases known : trace.memo.testFiles? with
  | some files =>
    rw [exec_testFiles_known known]
    exact ⟨wf, .refl _⟩
  | none =>
    rw [(exec_testFiles_new known).2]
    refine ⟨?_, Memo.grows_learnFiles known⟩
    cases found : run.diskFiles disk with
    | error fault => exact wf
    | ok files =>
      refine ⟨wf.cache, fun same => ?_⟩
      cases same
      exact fun file mem => isAbsolute_of_mem_diskFiles found mem

/-- Reading imports loses nothing. -/
lemma moves_importFacts (run : Run) (disk : Disk) (file : String) :
    Moves Memo.Evolves (run.importFacts disk file) := by
  intro trace wf
  cases known : trace.memo.imports.lookup file with
  | some facts =>
    rw [exec_importFacts_known known]
    exact ⟨wf, .refl _⟩
  | none =>
    rw [(exec_importFacts_new wf.cache known).2]
    refine ⟨?_, Memo.grows_learnImports⟩
    cases run.diskImports disk file with
    | error fault => exact wf
    | ok facts => exact ⟨wf.cache, wf.rooted⟩

/-- No operation loses what is known, whether it succeeds or fails. -/
theorem evolves_perform (run : Run) (disk : Disk) (operation : Operation) :
    Moves Memo.Evolves (run.perform disk operation) :=
  moves_perform Memo.Evolves.refl Memo.Evolves.trans (moves_testFiles run disk)
    (moves_importFacts run disk) operation

/-- Imports that were read are known afterwards. -/
lemma lookup_exec_importFacts (wf : trace.memo.WellFormed) {file facts}
    (read : ((run.importFacts disk file).exec trace).1 = .ok facts) :
    ((run.importFacts disk file).exec trace).2.memo.imports.lookup file = some facts := by
  cases known : trace.memo.imports.lookup file with
  | some facts' =>
    rw [exec_importFacts_known known] at read ⊢
    cases read
    exact known
  | none =>
    rw [(exec_importFacts_new wf.cache known).1] at read
    rw [(exec_importFacts_new wf.cache known).2, read]
    exact Memo.lookup_learnImports known

/-- Test files that were found are known afterwards. -/
lemma testFiles?_exec_testFiles {files}
    (found : ((run.testFiles disk).exec trace).1 = .ok files) :
    ((run.testFiles disk).exec trace).2.memo.testFiles? = some files := by
  cases known : trace.memo.testFiles? with
  | some files' =>
    rw [exec_testFiles_known known] at found ⊢
    cases found
    exact known
  | none =>
    rw [(exec_testFiles_new known).1] at found
    rw [(exec_testFiles_new known).2, found]
    rfl

/-- A well-formed memo and a disk show a reading. -/
def Shows (run : Run) (disk : Disk) (reading : Reading) (memo : Memo) : Prop :=
  memo.WellFormed ∧ run.reading disk memo = reading

variable {reading : Reading}

/-- The search for test files shows the files of the reading and changes nothing in it. -/
lemma gives_testFiles : Gives (run.Shows disk reading) (run.testFiles disk) reading.files := by
  rintro trace ⟨wf, rfl⟩
  obtain ⟨wf', _⟩ := moves_testFiles run disk trace wf
  cases known : trace.memo.testFiles? with
  | some files =>
    rw [exec_testFiles_known known]
    exact ⟨by simp [Run.reading, known], wf, rfl⟩
  | none =>
    refine ⟨?_, wf', ?_⟩
    · rw [(exec_testFiles_new known).1]
      simp [Run.reading, known]
    · rw [(exec_testFiles_new known).2]
      cases found : run.diskFiles disk with
      | error fault => rfl
      | ok files => simp [Run.reading, Memo.learnFiles, known, found]

/-- Reading imports shows those of the reading and changes nothing in it. -/
lemma gives_importFacts (file : String) :
    Gives (run.Shows disk reading) (run.importFacts disk file) (reading.imports file) := by
  rintro trace ⟨wf, rfl⟩
  obtain ⟨wf', _⟩ := moves_importFacts run disk file trace wf
  cases known : trace.memo.imports.lookup file with
  | some facts =>
    rw [exec_importFacts_known known]
    exact ⟨by simp [Run.reading, known], wf, rfl⟩
  | none =>
    refine ⟨?_, wf', ?_⟩
    · rw [(exec_importFacts_new wf.cache known).1]
      simp [Run.reading, known]
    · rw [(exec_importFacts_new wf.cache known).2]
      cases read : run.diskImports disk file with
      | error fault => rfl
      | ok facts =>
        -- The new entry answers for its own file alone, and as the disk did.
        simp only [Run.reading, Memo.learnImports, Reading.mk.injEq, true_and]
        funext file'
        rw [List.lookup_append]
        cases trace.memo.imports.lookup file' with
        | some facts' => rfl
        | none =>
          by_cases e : file' = file
          · subst e
            rw [Option.none_or, List.lookup_cons_self, read]
          · rw [Option.none_or, List.lookup_cons, beq_false_of_ne e]
            rfl

/-- Every operation answers as the reading does and changes nothing in it. -/
theorem shows_perform (operation : Operation) :
    Gives (run.Shows disk reading) (run.perform disk operation)
      (reading.answer run disk operation) :=
  gives_perform gives_testFiles gives_importFacts operation

end Run

end ExportCover
