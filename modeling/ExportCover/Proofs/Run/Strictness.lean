import ExportCover.Proofs.Config.Table
import ExportCover.Proofs.Run.Faults
import ExportCover.Proofs.Run.Growth
import ExportCover.Proofs.Run.Settings

/-!
# Stopping at files that cannot be read

Two fresh runs that differ in `fail_on_unreadable` alone check one module. The strict one stops at
the first test file that cannot be read, if the search gets there: some exported function is
imported by no test file before it. Otherwise the two outcomes are the same
(`checkModule_strict`). A module that turns out to be a test file is not searched for, and a
configuration without a language, or with extensions that are no list of texts, fails before
(`checkModule_lax`).
-/

namespace ExportCover

namespace Run

variable {run : Run} {disk : Disk} {file testFile : String} {before : List String} {cause : Fault}

/-- A strict run fails to read the imports of a file that cannot be read. -/
lemma diskImports_stops (strict : run.config.isOn "fail_on_unreadable" = .ok true)
    (unread : parsedImports disk file = .error cause) :
    run.diskImports disk file = .error (.unreadableTest file cause) := by
  have unreadable := isUnreadable_of_parsedImports unread
  simp only [diskImports, unread, tryCatch, tryCatchThe, MonadExceptOf.tryCatch, Except.tryCatch,
    unreadable, if_true, excuse, strict, Outcome.ok_bind]

/-- The first test file that cannot be read, after those before it. -/
structure FirstUnreadable (run : Run) (disk : Disk) (before : List String) (testFile : String)
    (cause : Fault) : Prop where
  found : ∃ after, run.diskFiles disk = .ok (before ++ testFile :: after)
  readable : ∀ file ∈ before, ∃ facts, parsedImports disk file = .ok facts
  unread : parsedImports disk testFile = .error cause

/-- All files can be read, or one of them is the first that cannot. -/
lemma readable_or_first (disk : Disk) (files : List String) :
    (∀ file ∈ files, ∃ facts, parsedImports disk file = .ok facts) ∨
      ∃ before testFile after cause, files = before ++ testFile :: after ∧
        (∀ file ∈ before, ∃ facts, parsedImports disk file = .ok facts) ∧
        parsedImports disk testFile = .error cause := by
  induction files with
  | nil => exact .inl nofun
  | cons file rest ih =>
    cases parsed : parsedImports disk file with
    | error cause => exact .inr ⟨[], file, rest, cause, rfl, nofun, parsed⟩
    | ok facts =>
      obtain all | ⟨before, testFile, after, cause, rfl, readable, unread⟩ := ih
      · exact .inl (List.forall_mem_cons.mpr ⟨⟨facts, parsed⟩, all⟩)
      · exact .inr ⟨file :: before, testFile, after, cause, rfl,
          List.forall_mem_cons.mpr ⟨⟨facts, parsed⟩, readable⟩, unread⟩

/-- A strict check stops at a test file: it is the first that cannot be read, and some exported
function of the module at `home` is imported by no test file before it. -/
def StopsAt (run : Run) (disk : Disk) (home : Path) (extracted : Except Fault Exports)
    (testFile : String) (cause : Fault) : Prop :=
  ∃ before, run.FirstUnreadable disk before testFile cause ∧
    ∃ exports, extracted = .ok exports ∧ ∃ function ∈ exports.functions,
      ¬ run.Imports disk before (factsIn disk) (Path.render home) function.name

/-- How the outcomes of a strict and of a lenient check of the module at `home` relate. -/
structure Differ {α : Type} (run : Run) (disk : Disk) (home : Path)
    (extracted : Except Fault Exports) (strict lenient : Except Fault α) : Prop where
  stops : ∀ testFile cause, strict = .error (.unreadableTest testFile cause) ↔
    run.StopsAt disk home extracted testFile cause
  same : (∀ testFile cause, ¬ run.StopsAt disk home extracted testFile cause) → strict = lenient
  skips : ∀ testFile cause, lenient ≠ .error (.unreadableTest testFile cause)

namespace Differ

variable {α β : Type} {home : Path} {extracted : Except Fault Exports}
  {strict lenient : Except Fault α}

/-- The lenient outcome spares test files, and the strict one is the same or stops. -/
lemma of_stops_or_eq (spares : Spares lenient)
    (stops : ∀ testFile cause, run.StopsAt disk home extracted testFile cause →
      strict = .error (.unreadableTest testFile cause))
    (stops_or_eq : (∃ testFile cause, run.StopsAt disk home extracted testFile cause) ∨
      strict = lenient) : Differ run disk home extracted strict lenient := by
  refine ⟨fun testFile cause => ⟨fun failed => ?_, stops testFile cause⟩, fun never => ?_, spares⟩
  · obtain ⟨testFile', cause', stop⟩ | same := stops_or_eq
    · cases (stops _ _ stop).symm.trans failed
      exact stop
    · exact absurd (same.symm.trans failed) (spares testFile cause)
  · obtain ⟨testFile, cause, stop⟩ | same := stops_or_eq
    · exact absurd stop (never testFile cause)
    · exact same

/-- Outcomes in another form differ as they did. -/
lemma map (differ : Differ run disk home extracted strict lenient) {f : α → β} :
    Differ run disk home extracted (f <$> strict) (f <$> lenient) := by
  refine ⟨fun testFile cause => ?_, fun never => by rw [differ.same never], ?_⟩
  · rw [Outcome.map_eq_error, differ.stops]
  · exact Spares.map differ.skips f

end Differ

/-- The exports of the module at a place, whose text may be given. -/
def extracted (run : Run) (disk : Disk) (place : Path) (source? : Option Bytes) :
    Except Fault Exports := do
  let grammar ← Grammar.ofPath (Path.render place)
  let source ← source?.elim (disk.read (Path.render place)) .ok
  run.exportsOf (Program.parse grammar source).root

end Run

namespace Reading

variable {reading reading' : Reading} {run : Run} {disk : Disk} {moduleFile file : String}

/-- Functions that are all covered are not reported. -/
lemma missingTests_covered {locale : Json} {functions : List ExportedFunction}
    (covered : ∀ function ∈ functions,
      reading.isCovered run disk function.name moduleFile = .ok true) :
    reading.missingTests run disk moduleFile file locale functions = .ok [] := by
  induction functions with
  | nil => rfl
  | cons function rest ih =>
    obtain ⟨here, covered⟩ := List.forall_mem_cons.mp covered
    rw [missingTests, here]
    exact ih covered

/-- A report fails at the first function whose lookup fails, if those before it are covered. -/
lemma missingTests_fails {locale : Json} {fault : Fault} {functions : List ExportedFunction}
    (covered : ∀ function ∈ functions,
      reading.isCovered run disk function.name moduleFile = .ok true ∨
        reading.isCovered run disk function.name moduleFile = .error fault)
    (failed : ∃ function ∈ functions,
      reading.isCovered run disk function.name moduleFile = .error fault) :
    reading.missingTests run disk moduleFile file locale functions = .error fault := by
  induction functions with
  | nil => obtain ⟨_, mem, _⟩ := failed; cases mem
  | cons function rest ih =>
    obtain ⟨here, covered⟩ := List.forall_mem_cons.mp covered
    rw [missingTests]
    obtain here | here := here
    · rw [here]
      obtain ⟨other, mem, failed⟩ := failed
      obtain rfl | mem := List.mem_cons.mp mem
      · cases here.symm.trans failed
      · exact ih covered ⟨other, mem, failed⟩
    · rw [here]
      rfl

section Search

variable {extensions before : List String} {indexName name : String}
  {facts : String → List ImportFact}
  (hasExtensions : run.config.get "extensions" = .ok (.texts extensions))
  (hasIndex : run.config.get "index_name" = .ok (.string indexName))
  (rooted : ∀ file ∈ before, Path.isAbsolute file)
  (read : ∀ file ∈ before, reading.imports file = .ok (facts file))
include hasExtensions hasIndex rooted read

/-- A search goes through files that can be read, and on if none of them ends it. -/
lemma coveringFile_append (moduleRooted : Path.isAbsolute moduleFile) (after : List String) :
    Option.isSome <$> reading.coveringFile run disk (.string indexName) name moduleFile
        (before ++ after)
      = if before.any fun testFile => (facts testFile).any (·.brings indexName
          (Specifier.spelling extensions indexName testFile moduleFile) name) then .ok true
        else Option.isSome <$> reading.coveringFile run disk (.string indexName) name moduleFile
          after := by
  induction before with
  | nil => rfl
  | cons testFile rest ih =>
    obtain ⟨testRooted, rooted⟩ := List.forall_mem_cons.mp rooted
    obtain ⟨testRead, read⟩ := List.forall_mem_cons.mp read
    rw [List.cons_append, coveringFile_cons hasExtensions hasIndex moduleRooted testRooted,
      testRead, Outcome.ok_bind, List.any_cons]
    cases (facts testFile).any (·.brings indexName
        (Specifier.spelling extensions indexName testFile moduleFile) name) with
    | true => rfl
    | false => exact ih rooted read

/-- A lookup is decided by test files that can be read, or by those after them. -/
lemma isCovered_append {home : Path} {after : List String}
    (resolved : disk.resolveFrom run.root moduleFile = .ok home)
    (found : reading.files = .ok (before ++ after)) :
    (run.Imports disk before facts (Path.render home) name →
        reading.isCovered run disk name moduleFile = .ok true) ∧
      (¬ run.Imports disk before facts (Path.render home) name →
        reading.isCovered run disk name moduleFile
          = Option.isSome <$> reading.coveringFile run disk (.string indexName) name
              (Path.render home) after) := by
  have moduleRooted := Path.isAbsolute_render home
  rw [isCovered_eq_map hasIndex resolved found,
    coveringFile_append hasExtensions hasIndex rooted read moduleRooted,
    Run.imports_iff_any hasExtensions hasIndex rooted moduleRooted]
  exact ⟨fun imported => if_pos imported, fun missing => if_neg missing⟩

end Search

end Reading

namespace Run

/-- Two runs differ in one switch alone: the first stops at test files that cannot be read. -/
structure Stricter (strict lenient : Run) : Prop where
  root : strict.root = lenient.root
  others : ∀ key, key ≠ "fail_on_unreadable" →
    strict.config.get? key = lenient.config.get? key
  stops : strict.config.isOn "fail_on_unreadable" = .ok true
  skips : lenient.config.isOn "fail_on_unreadable" = .ok false

section Lookup

variable {run : Run} {disk : Disk} {extensions before : List String}
  {indexName moduleFile : String} {home : Path}
  (hasExtensions : run.config.get "extensions" = .ok (.texts extensions))
  (hasIndex : run.config.get "index_name" = .ok (.string indexName))
  (resolved : disk.resolveFrom run.root moduleFile = .ok home)
include hasExtensions hasIndex resolved

/-- A lookup of a fresh run is decided by test files that can be read, or by those after them.
`reader` is the run whose test files are read. -/
lemma isCovered_first (reader : Run) {after : List String}
    (found : reader.diskFiles disk = .ok (before ++ after))
    (readable : ∀ file ∈ before, ∃ facts, parsedImports disk file = .ok facts) (name : String) :
    (run.Imports disk before (factsIn disk) (Path.render home) name →
        (reader.reading disk .empty).isCovered run disk name moduleFile = .ok true) ∧
      (¬ run.Imports disk before (factsIn disk) (Path.render home) name →
        (reader.reading disk .empty).isCovered run disk name moduleFile
          = Option.isSome <$> (reader.reading disk .empty).coveringFile run disk
              (.string indexName) name (Path.render home) after) := by
  refine Reading.isCovered_append hasExtensions hasIndex (fun file mem => ?_) (fun file mem => ?_)
    resolved found
  · exact isAbsolute_of_mem_diskFiles found (List.mem_append_left _ mem)
  · obtain ⟨facts, parsed⟩ := readable file mem
    rw [factsIn, parsed]
    exact diskImports_of_parsed parsed

/-- A lookup of a strict run succeeds if a test file before the first unreadable one imports the
name, and fails there otherwise. -/
lemma isCovered_stops (stops : run.config.isOn "fail_on_unreadable" = .ok true) {testFile : String}
    {cause : Fault} (first : run.FirstUnreadable disk before testFile cause) (name : String) :
    (run.Imports disk before (factsIn disk) (Path.render home) name →
        (run.reading disk .empty).isCovered run disk name moduleFile = .ok true) ∧
      (¬ run.Imports disk before (factsIn disk) (Path.render home) name →
        (run.reading disk .empty).isCovered run disk name moduleFile
          = .error (.unreadableTest testFile cause)) := by
  obtain ⟨after, found⟩ := first.found
  obtain ⟨hit, miss⟩ :=
    isCovered_first hasExtensions hasIndex resolved run found first.readable name
  refine ⟨hit, fun missing => ?_⟩
  have rooted : Path.isAbsolute testFile := isAbsolute_of_mem_diskFiles found (by simp)
  have failed : (run.reading disk .empty).imports testFile
      = .error (.unreadableTest testFile cause) := diskImports_stops stops first.unread
  rw [miss missing, Reading.coveringFile_cons hasExtensions hasIndex (Path.isAbsolute_render home)
    rooted, failed]
  rfl

end Lookup

section Stricter

variable {strict lenient : Run} {disk : Disk} {extensions : List String}
  {indexName moduleFile : String} {home : Path}

/-- The two runs agree on all keys but the switch. -/
lemma Stricter.agreeOn (stricter : Stricter strict lenient) {keys : List String}
    (off : "fail_on_unreadable" ∉ keys) : AgreeOn keys strict lenient :=
  ⟨stricter.root, fun key mem => stricter.others key fun same => off (same ▸ mem)⟩

variable (stricter : Stricter strict lenient)
  (hasExtensions : strict.config.get "extensions" = .ok (.texts extensions))
  (hasIndex : strict.config.get "index_name" = .ok (.string indexName))
  (resolved : disk.resolveFrom strict.root moduleFile = .ok home)
include stricter hasExtensions hasIndex resolved

/-- Lookups agree if all test files can be read, or if none are found. -/
lemma isCovered_readable (readable : ∀ files, strict.diskFiles disk = .ok files →
      ∀ file ∈ files, ∃ facts, parsedImports disk file = .ok facts) (name : String) :
    (strict.reading disk .empty).isCovered strict disk name moduleFile
      = (lenient.reading disk .empty).isCovered lenient disk name moduleFile := by
  have agree : AgreeOn judging strict lenient := stricter.agreeOn (by decide)
  rw [← Reading.isCovered_congr agree]
  cases found : strict.diskFiles disk with
  | error fault =>
    rw [Reading.isCovered, Reading.isCovered, resolved, hasIndex, reading_empty, reading_empty,
      ← agree.diskFiles, found]
    simp only [Outcome.ok_bind, Outcome.error_bind]
  | ok files =>
    have none : strict.diskFiles disk = .ok (files ++ []) := by rw [List.append_nil, found]
    obtain ⟨hit, miss⟩ := isCovered_first hasExtensions hasIndex resolved strict none
      (readable files found) name
    obtain ⟨hit', miss'⟩ := isCovered_first hasExtensions hasIndex resolved lenient
      (agree.diskFiles.symm.trans none) (readable files found) name
    by_cases imported : strict.Imports disk files (factsIn disk) (Path.render home) name
    · rw [hit imported, hit' imported]
    · rw [miss imported, miss' imported]
      simp only [Reading.coveringFile]

/-- The reports on functions agree, or the strict one stops. -/
lemma missingTests_stops_or_eq (shown : String) (locale : Json) (exports : Exports) :
    (∃ testFile cause, strict.StopsAt disk home (.ok exports) testFile cause) ∨
      (strict.reading disk .empty).missingTests strict disk moduleFile shown locale
          exports.functions
        = (lenient.reading disk .empty).missingTests lenient disk moduleFile shown locale
            exports.functions := by
  have agree : AgreeOn judging strict lenient := stricter.agreeOn (by decide)
  by_cases readable : ∀ files, strict.diskFiles disk = .ok files →
      ∀ file ∈ files, ∃ facts, parsedImports disk file = .ok facts
  · exact .inr (Reading.missingTests_congr
      (isCovered_readable stricter hasExtensions hasIndex resolved readable) _)
  · obtain ⟨files, found, unreadable⟩ := by simpa only [not_forall] using readable
    obtain all | ⟨before, testFile, after, cause, rfl, readable, unread⟩ :=
      readable_or_first disk files
    · exact absurd all (by simpa only [not_forall] using unreadable)
    have first : strict.FirstUnreadable disk before testFile cause :=
      ⟨⟨after, found⟩, readable, unread⟩
    by_cases imported : ∀ function ∈ exports.functions,
        strict.Imports disk before (factsIn disk) (Path.render home) function.name
    · -- Every function is imported before the unreadable file, so neither search gets there.
      right
      have covered : ∀ function ∈ exports.functions, (lenient.reading disk .empty).isCovered lenient
          disk function.name moduleFile = .ok true := by
        intro function mem
        rw [← Reading.isCovered_congr agree]
        exact (isCovered_first hasExtensions hasIndex resolved lenient
          (agree.diskFiles.symm.trans found) readable function.name).1 (imported function mem)
      rw [Reading.missingTests_covered covered, Reading.missingTests_covered fun function mem =>
        (isCovered_first hasExtensions hasIndex resolved strict found readable function.name).1
          (imported function mem)]
    · obtain ⟨function, mem, missing⟩ := by simpa only [not_forall] using imported
      exact .inl ⟨testFile, cause, before, first, exports, rfl, function, mem, missing⟩

/-- The report of a strict run fails where it stops. -/
lemma missingTests_stops {shown : String} {locale : Json} {exports : Exports} {testFile : String}
    {cause : Fault} (stop : strict.StopsAt disk home (.ok exports) testFile cause) :
    (strict.reading disk .empty).missingTests strict disk moduleFile shown locale
      exports.functions = .error (.unreadableTest testFile cause) := by
  obtain ⟨before, first, _, same, function, mem, missing⟩ := stop
  cases same
  have looked := isCovered_stops hasExtensions hasIndex resolved stricter.stops first
  refine Reading.missingTests_fails (fun other _ => ?_)
    ⟨function, mem, (looked function.name).2 missing⟩
  by_cases imported : strict.Imports disk before (factsIn disk) (Path.render home) other.name
  · exact .inl ((looked other.name).1 imported)
  · exact .inr ((looked other.name).2 imported)

/-- The reports about exports that were collected differ as they should. -/
lemma differ_diagnose {shown : String} {locale : Json} {extracted : Except Fault Exports}
    (relative : disk.relativeTo strict.root moduleFile = .ok shown)
    (hasLocale : strict.config.get "locale" = .ok locale) (spares : Spares extracted) :
    Differ strict disk home extracted
      (extracted >>= fun exports =>
        (strict.reading disk .empty).diagnose strict disk exports moduleFile)
      (extracted >>= fun exports =>
        (lenient.reading disk .empty).diagnose lenient disk exports moduleFile) := by
  have agree : AgreeOn ["locale", "report_unchecked_exports"] strict lenient :=
    stricter.agreeOn (by decide)
  refine .of_stops_or_eq ?_ ?_ ?_
  · refine spares.bind fun exports => Reading.spares_diagnose spares_diskFiles (fun file => ?_) _ _
    exact .of_eq_ok (diskImports_eq stricter.skips file)
  · rintro testFile cause ⟨before, first, exports, rfl, stop⟩
    rw [Outcome.ok_bind, Reading.diagnose, relative, Outcome.ok_bind, hasLocale, Outcome.ok_bind,
      missingTests_stops stricter hasExtensions hasIndex resolved
        ⟨before, first, exports, rfl, stop⟩]
    rfl
  · cases extracted with
    | error fault => exact .inr rfl
    | ok exports =>
      obtain stop | same :=
        missingTests_stops_or_eq stricter hasExtensions hasIndex resolved shown locale exports
      · exact .inl stop
      · right
        have hasLocale' : lenient.config.get "locale" = .ok locale :=
          (agree.get (by decide)).symm.trans hasLocale
        have warns := agree.isOn (show "report_unchecked_exports" ∈ _ by decide)
        rw [Outcome.ok_bind, Outcome.ok_bind, Reading.diagnose, Reading.diagnose, ← stricter.root,
          relative, hasLocale, hasLocale']
        simp only [Outcome.ok_bind, same, uncheckedExports, warns]

end Stricter

/-- Two fresh runs that differ in `fail_on_unreadable` alone check a module that is checked at the
place where it is found; `home` is where that leads. The strict run fails with the first test file
that cannot be read if and only if some exported function is imported by no test file before it. In
every other case the two outcomes are the same, and the lenient run never fails with a test file. -/
theorem checkModule_strict (disk : Disk) {strict lenient : Run} {extensions : List String}
    {indexName moduleFile : String} {locale : Json} {place : Path}
    (stricter : Stricter strict lenient) (hasLocale : strict.config.get "locale" = .ok locale)
    (hasExtensions : strict.config.get "extensions" = .ok (.texts extensions))
    (hasIndex : strict.config.get "index_name" = .ok (.string indexName))
    (resolved : disk.resolveFrom strict.root moduleFile = .ok place)
    (checked : strict.shouldCheck disk (Path.render place) = .ok true) :
    ∃ home, disk.resolveFrom strict.root (Path.render place) = .ok home ∧
      (∀ tree, Differ strict disk home (strict.exportsOf tree)
        ((strict.checkTree disk (Path.render place) tree).runWith .empty).1
        ((lenient.checkTree disk (Path.render place) tree).runWith .empty).1) ∧
      ∀ source?, Differ strict disk home (strict.extracted disk place source?)
        (strict.ask disk .empty (.checkModule moduleFile source?))
        (lenient.ask disk .empty (.checkModule moduleFile source?)) := by
  have agree : AgreeOn judging strict lenient := stricter.agreeOn (by decide)
  obtain ⟨shown, relative⟩ := exists_relativeTo checked
  obtain ⟨home, again⟩ := exists_resolveFrom relative
  have wf := Memo.wellFormed_empty
  refine ⟨home, again, fun tree => ?_, fun source? => ?_⟩
  · rw [(gives_checkTree gives_testFiles gives_importFacts).outcome_eq ⟨wf, rfl⟩,
      (gives_checkTree gives_testFiles gives_importFacts).outcome_eq ⟨wf, rfl⟩,
      Reading.checkTree, Reading.checkTree, ← agree.exportsOf]
    exact differ_diagnose stricter hasExtensions hasIndex again relative hasLocale
      (spares_exportsOf tree)
  · -- A check of a module collects its exports and reports on them.
    have whole {run : Run} (reading : Reading)
        (resolved : disk.resolveFrom run.root moduleFile = .ok place)
        (checked : run.shouldCheck disk (Path.render place) = .ok true) :
        reading.checkModule run disk moduleFile source?
          = run.extracted disk place source? >>= fun exports =>
              reading.diagnose run disk exports (Path.render place) := by
      rw [Reading.checkModule, resolved, Outcome.ok_bind, checked]
      simp only [Outcome.ok_bind, Bool.not_true, Bool.false_eq_true, if_false, extracted,
        bind_assoc, Reading.checkTree]
    have same : lenient.extracted disk place source? = strict.extracted disk place source? := by
      simp only [extracted, agree.exportsOf]
    rw [ask_eq_answer wf, ask_eq_answer wf, Reading.answer, Reading.answer,
      whole _ resolved checked,
      whole _ (stricter.root ▸ resolved) (agree.shouldCheck.symm.trans checked), same]
    refine (differ_diagnose stricter hasExtensions hasIndex again relative hasLocale ?_).map
    refine (Grammar.spares_ofPath _).bind fun grammar => Spares.bind ?_ fun source =>
      spares_exportsOf _
    cases source? with
    | none => exact disk.spares_read _
    | some source => exact .ok source

/-- A project with two test files, of which the second is a link to a file that no grammar reads.
Beside the project is a link to another test file. -/
def hindered : Disk :=
  ⟨⟨[(["p"], .directory), (["p", "a.test.ts"], .file (Text.encode "import { f } from './5'")),
    (["p", "b.test.ts"], .link "../q/data"), (["q"], .directory),
    (["q", "a.ts"], .link "x.test.ts"), (["q", "data"], .file []),
    (["q", "x.test.ts"], .file [])]⟩, []⟩

/-- The default configuration with the switch on. -/
def strictConfig : Config := Config.default.set "fail_on_unreadable" (.bool true)

/-- A run on the hindered project. -/
def hinderedRun (config : Config) : Run := ⟨"/p", config⟩

/-- A text that exports one function. -/
def singleSource : Bytes := Text.encode "export function g() {}"

section Hindered

variable {config : Config}

/-- The test files of the hindered project, the second of them behind its link. -/
lemma diskFiles_hindered (query : (hinderedRun config).query = .ok Discovery.defaultQuery) :
    (hinderedRun config).diskFiles hindered = .ok ["/p/a.test.ts", "/q/data"] := by
  have names : hindered.tree.namesIn ["p"] = ["a.test.ts", "b.test.ts"] := by
    simp [FileTree.namesIn, hindered, List.mergeSort, List.MergeSort.Internal.splitInTwo]
  have found : Discovery.Visit.findings hindered.tree Discovery.defaultQuery ⟨["p"], ["p"]⟩
      = [.event (.found ["p", "a.test.ts"]), .event (.found ["q", "data"])] := by
    rw [Discovery.Visit.findings, names]
    rfl
  have start : Path.ofText hindered.cwd "/p" = ["p"] := rfl
  have listed := diskFiles_flat query found rfl start rfl rfl rfl
  exact listed

/-- The module beside the hindered project is where it is written, and it is shown with the way to
it. -/
lemma module_hindered :
    Path.render ["q", "m.ts"] = "/q/m.ts" ∧ Grammar.ofPath "/q/m.ts" = .ok .typescript ∧
      hindered.resolveFrom "/p" "/q/m.ts" = .ok ["q", "m.ts"] ∧
      hindered.relativeTo "/p" "/q/m.ts" = .ok "../q/m.ts" :=
  ⟨rfl, rfl, rfl, rfl⟩

/-- The module beside the hindered project is found from the root of the run. -/
lemma resolved_hindered : hindered.resolveFrom (hinderedRun config).root "/q/m.ts"
    = .ok ["q", "m.ts"] :=
  module_hindered.2.2.1

/-- Of the two test files of the hindered project the first can be read. -/
lemma parsedImports_hindered :
    parsedImports hindered "/p/a.test.ts" = .ok [⟨"./5", ⟨["f"], none, none⟩⟩] ∧
      parsedImports hindered "/q/data" = .error (.noGrammar "/q/data") := by
  decide +kernel

/-- The second test file of the hindered project is the first that cannot be read. -/
lemma firstUnreadable_hindered (query : (hinderedRun config).query = .ok Discovery.defaultQuery) :
    (hinderedRun config).FirstUnreadable hindered ["/p/a.test.ts"] "/q/data"
      (.noGrammar "/q/data") := by
  refine ⟨⟨[], diskFiles_hindered query⟩, fun file mem => ?_, parsedImports_hindered.2⟩
  obtain rfl := List.mem_singleton.mp mem
  exact ⟨_, parsedImports_hindered.1⟩

/-- The text exports one function. -/
lemma exports_single : (Program.parse .typescript singleSource).root.exports "test-ignore"
    = .ok ⟨[⟨"g", .namedFunction, 1, 1⟩], []⟩ := by
  decide +kernel

/-- A run on the hindered project collects the single function. -/
lemma exportsOf_single
    (hasMarker : config.get "ignore_marker" = .ok (.string "test-ignore")) :
    (hinderedRun config).exportsOf (Program.parse .typescript singleSource).root
      = .ok ⟨[⟨"g", .namedFunction, 1, 1⟩], []⟩ :=
  (exportsOf_of_get hasMarker _).trans exports_single

/-- The single function is what a module with the text exports. -/
lemma extracted_single {place : Path}
    (hasMarker : config.get "ignore_marker" = .ok (.string "test-ignore"))
    (isModule : Grammar.ofPath (Path.render place) = .ok .typescript) :
    (hinderedRun config).extracted hindered place (some singleSource)
      = .ok ⟨[⟨"g", .namedFunction, 1, 1⟩], []⟩ := by
  rw [extracted, isModule]
  exact exportsOf_single hasMarker

/-- The single function is not imported before the file that cannot be read. -/
lemma stopsAt_hindered (query : (hinderedRun config).query = .ok Discovery.defaultQuery)
    {extracted : Except Fault Exports} {home : Path}
    (single : extracted = .ok ⟨[⟨"g", .namedFunction, 1, 1⟩], []⟩) :
    (hinderedRun config).StopsAt hindered home extracted "/q/data" (.noGrammar "/q/data") := by
  refine ⟨_, firstUnreadable_hindered query, _, single, _, List.mem_singleton_self _, ?_⟩
  rintro ⟨testFile, mem, fact, brings, named, -⟩
  obtain rfl := List.mem_singleton.mp mem
  rw [factsIn, parsedImports_hindered.1] at brings
  obtain rfl := List.mem_singleton.mp brings
  simp at named

end Hindered

/-- The two runs on the hindered project differ in the switch alone. -/
lemma stricter_hindered : Stricter (hinderedRun strictConfig) (hinderedRun Config.default) := by
  refine ⟨rfl, fun key ne => ?_, rfl, rfl⟩
  rw [hinderedRun, strictConfig, Config.get?_set, if_neg (Ne.symm ne)]
  rfl

/-- The strict run stops at the link if it looks for a function. The lenient one does not, and
without functions both agree. -/
theorem checkModule_strict_hindered :
    (hinderedRun strictConfig).ask hindered .empty (.checkModule "/q/m.ts" (some singleSource))
        = .error (.unreadableTest "/q/data" (.noGrammar "/q/data")) ∧
      (hinderedRun strictConfig).ask hindered .empty (.checkModule "/q/m.ts" (some []))
        = (hinderedRun Config.default).ask hindered .empty (.checkModule "/q/m.ts" (some [])) := by
  have query : (hinderedRun strictConfig).query = .ok Discovery.defaultQuery := rfl
  have hasLocale : (hinderedRun strictConfig).config.get "locale" = .ok (.string "en") := rfl
  have hasExtensions : (hinderedRun strictConfig).config.get "extensions"
      = .ok (.texts Specifier.defaultExtensions) := rfl
  have hasIndex : (hinderedRun strictConfig).config.get "index_name"
      = .ok (.string Specifier.defaultIndexName) := rfl
  obtain ⟨home, _, _, differ⟩ := checkModule_strict hindered stricter_hindered hasLocale
    hasExtensions hasIndex resolved_hindered (by decide +kernel)
  refine ⟨((differ (some singleSource)).stops _ _).mpr ?_, (differ (some [])).same ?_⟩
  · exact stopsAt_hindered query (extracted_single rfl rfl)
  · rintro testFile cause ⟨_, _, exports, extracted, function, mem, _⟩
    have nothing : (hinderedRun strictConfig).extracted hindered ["q", "m.ts"] (some [])
        = .ok Exports.none := by decide +kernel
    cases nothing.symm.trans extracted
    cases mem

/-- The strict configuration without a key. -/
def lacking (key : String) : Config := strictConfig.filter fun entry => entry.1 != key

/-- The strict configuration with a number for the index name. -/
def numbered : Config := strictConfig.set "index_name" (.int 5)

/-- A check of a module with one function fails as the search for the language or the lookup of that
function does. -/
lemma ask_hindered {config : Config} {fault : Fault}
    (checked : (hinderedRun config).shouldCheck hindered "/q/m.ts" = .ok true)
    (single : (hinderedRun config).exportsOf (Program.parse .typescript singleSource).root
      = .ok ⟨[⟨"g", .namedFunction, 1, 1⟩], []⟩)
    (failed : (hinderedRun config).config.get "locale" = .error fault ∨
      (∃ locale, (hinderedRun config).config.get "locale" = .ok locale) ∧
        ((hinderedRun config).reading hindered .empty).isCovered (hinderedRun config) hindered
          "g" "/q/m.ts" = .error fault) :
    (hinderedRun config).ask hindered .empty (.checkModule "/q/m.ts" (some singleSource))
      = .error fault := by
  obtain ⟨place, isModule, -, shown⟩ := module_hindered
  have relative : hindered.relativeTo (hinderedRun config).root "/q/m.ts" = .ok "../q/m.ts" := shown
  rw [ask_checkModule_eq Memo.wellFormed_empty resolved_hindered (place ▸ checked)
      (place ▸ isModule) rfl, Reading.checkTree, single, Outcome.ok_bind, place,
    Reading.diagnose_eq_error relative failed]
  rfl

/-- A lookup starts with the way in which the module is spelled in the first test file. -/
lemma isCovered_hindered {config : Config} {fault : Fault} (index : Json)
    (query : (hinderedRun config).query = .ok Discovery.defaultQuery)
    (hasIndex : config.get "index_name" = .ok index)
    (failed : (do
      let target ← (hinderedRun config).target hindered "/p/a.test.ts" "/q/m.ts"
      importsName index target "g" [⟨"./5", ⟨["f"], none, none⟩⟩]) = .error fault) :
    ((hinderedRun config).reading hindered .empty).isCovered (hinderedRun config) hindered
      "g" "/q/m.ts" = .error fault := by
  have read : ((hinderedRun config).reading hindered .empty).imports "/p/a.test.ts"
      = .ok [⟨"./5", ⟨["f"], none, none⟩⟩] := diskImports_of_parsed parsedImports_hindered.1
  refine Reading.isCovered_eq_error resolved_hindered hasIndex (diskFiles_hindered query) ?_
  rw [module_hindered.1, read]
  exact failed

/-- The strict run does not get to the first test file that cannot be read, although a function is
not imported before it, if the module that is checked is a link to a test file, if no language or no
extensions are configured, or if the index name is a number that an import ends with. -/
theorem checkModule_lax :
    ((hinderedRun strictConfig).shouldCheck hindered "/q/a.ts" = .ok true ∧
      hindered.resolveFrom "/p" "/q/a.ts" = .ok ["q", "x.test.ts"] ∧
      (hinderedRun strictConfig).StopsAt hindered ["q", "x.test.ts"]
        ((hinderedRun strictConfig).extracted hindered ["q", "x.test.ts"] (some singleSource))
        "/q/data" (.noGrammar "/q/data") ∧
      (hinderedRun strictConfig).ask hindered .empty (.checkModule "/q/a.ts" (some singleSource))
        = .ok (.diagnostics [])) ∧
    ∀ config fault, (config, fault) ∈ [(lacking "locale", Fault.missingKey "locale"),
        (lacking "extensions", .missingKey "extensions"), (numbered, .illTyped)] →
      (hinderedRun config).config.isOn "fail_on_unreadable" = .ok true ∧
      (hinderedRun config).shouldCheck hindered "/q/m.ts" = .ok true ∧
      (hinderedRun config).StopsAt hindered ["q", "m.ts"]
        ((hinderedRun config).extracted hindered ["q", "m.ts"] (some singleSource))
        "/q/data" (.noGrammar "/q/data") ∧
      (hinderedRun config).ask hindered .empty (.checkModule "/q/m.ts" (some singleSource))
        = .error fault := by
  have behind : hindered.resolveFrom (hinderedRun strictConfig).root "/q/a.ts"
      = .ok ["q", "x.test.ts"] := by decide +kernel
  have unchecked : (hinderedRun strictConfig).shouldCheck hindered
      (Path.render ["q", "x.test.ts"]) = .ok false := rfl
  refine ⟨⟨by decide +kernel, behind, stopsAt_hindered rfl (extracted_single rfl rfl),
    ask_checkModule_eq_nil Memo.wellFormed_empty behind unchecked _⟩, ?_⟩
  intro config fault mem
  simp only [List.mem_cons, List.not_mem_nil, or_false, Prod.mk.injEq] at mem
  -- Without a language the report fails at once; otherwise the first look-up of a function does.
  obtain ⟨rfl, rfl⟩ | ⟨rfl, rfl⟩ | ⟨rfl, rfl⟩ := mem
  · have checked : (hinderedRun (lacking "locale")).shouldCheck hindered "/q/m.ts" = .ok true := rfl
    exact ⟨rfl, checked, stopsAt_hindered rfl (extracted_single rfl rfl),
      ask_hindered checked (exportsOf_single rfl) (.inl rfl)⟩
  · have checked : (hinderedRun (lacking "extensions")).shouldCheck hindered "/q/m.ts"
        = .ok true := rfl
    refine ⟨rfl, checked, stopsAt_hindered rfl (extracted_single rfl rfl),
      ask_hindered checked (exportsOf_single rfl) (.inr ⟨⟨.string "en", rfl⟩, ?_⟩)⟩
    exact isCovered_hindered (.string "index") rfl rfl rfl
  · have checked : (hinderedRun numbered).shouldCheck hindered "/q/m.ts" = .ok true := rfl
    refine ⟨rfl, checked, stopsAt_hindered rfl (extracted_single rfl rfl),
      ask_hindered checked (exportsOf_single rfl) (.inr ⟨⟨.string "en", rfl⟩, ?_⟩)⟩
    refine isCovered_hindered (.int 5) rfl rfl ?_
    obtain ⟨target, spelled⟩ : ∃ target,
        (hinderedRun numbered).target hindered "/p/a.test.ts" "/q/m.ts" = .ok target :=
      exists_target hindered rfl rfl (by decide) (by decide)
    rw [spelled, Outcome.ok_bind, importsName_eq_error _ rfl rfl]

end Run

end ExportCover
