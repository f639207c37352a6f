import ExportCover.Proofs.Path.Comparison
import ExportCover.Proofs.Run.History
import ExportCover.Proofs.Run.Search

/-!
# Imports that are dropped

A run keeps the relative imports of a test file and drops those of installed packages. Nothing is
lost by this. A module is written relative to the test file, and no other specifier than a relative
one spells it, so that a search through all imports of the test files, each as it was when the run
read it, comes to the same answer (`isCovered_unfiltered`).
-/

namespace ExportCover

open Specifier (isRelative sameModule)

namespace Node

/-- All imports below a node in the order of the text, those of installed packages too. -/
def allImports (root : Node) : List ImportFact :=
  root.importSources.map fun (statement, fragment) =>
    ⟨fragment.text, ImportedNames.ofStatement statement⟩

/-- The imports that are kept are the relative ones. -/
lemma importFacts_eq_filter (root : Node) :
    root.importFacts = root.allImports.filter (isRelative ·.specifier) := by
  rw [importFacts, allImports, ← List.filterMap_eq_filter, List.filterMap_map]
  congr 1
  funext ⟨statement, fragment⟩
  simp only [Specifier.isDependency, Function.comp, Option.guard]
  by_cases relative : isRelative fragment.text <;> simp [relative]

end Node

namespace Run

open Work

/-- All imports of a file, as the disk has it now. -/
def parsedSources (disk : Disk) (file : String) : Except Fault (List ImportFact) := do
  let grammar ← Grammar.ofPath file
  let source ← disk.read file
  let grammar ← Grammar.ofName grammar.name
  return (Program.parse grammar source).root.allImports

/-- All imports of a test file, as the disk has it now; one that cannot be read may be skipped. -/
def diskSources (run : Run) (disk : Disk) (file : String) : Except Fault (List ImportFact) :=
  tryCatch (parsedSources disk file) fun fault =>
    if isUnreadable fault then run.excuse file fault else .error fault

/-- The disk on which a run reads a test file: that of the first event after which its imports are
known, and otherwise the present one. -/
def readOn (run : Run) (file : String) (now : Disk) : List (Disk × Operation) → Memo → Disk
  | [], _ => now
  | event :: rest, memo =>
    if ((run.step memo event).imports.lookup file).isSome then event.1
    else readOn run file now rest (run.step memo event)

/-- What a run would have read if it dropped nothing: its test files, and all imports of each of them
as it was when the run read it. -/
def unfiltered (run : Run) (past : List (Disk × Operation)) (now : Disk) : Reading where
  files := (run.reading now (run.replay past .empty)).files
  imports file := run.diskSources (run.readOn file now past .empty) file

variable {run : Run} {disk : Disk} {indexName name moduleFile : String}

/-- The imports of a file are the relative ones among all that it names. -/
lemma parsedImports_eq (disk : Disk) (file : String) :
    parsedImports disk file = (·.filter (isRelative ·.specifier)) <$> parsedSources disk file := by
  rw [parsedImports, parsedSources]
  cases Grammar.ofPath file with
  | error fault => rfl
  | ok grammar =>
    simp only [Outcome.ok_bind]
    cases disk.read file with
    | error fault => rfl
    | ok source =>
      cases Grammar.ofName grammar.name with
      | error fault => rfl
      | ok language => exact congrArg Except.ok (Node.importFacts_eq_filter _)

/-- The imports of a test file are the relative ones of all that it has. -/
lemma diskImports_eq_filter (run : Run) (disk : Disk) (file : String) :
    run.diskImports disk file
      = (·.filter (isRelative ·.specifier)) <$> run.diskSources disk file := by
  rw [diskImports, diskSources, parsedImports_eq]
  cases parsedSources disk file with
  | ok facts => rfl
  | error fault =>
    change (if isUnreadable fault then _ else _) = _ <$> (if isUnreadable fault then _ else _)
    split
    · rw [excuse]
      cases run.config.isOn "fail_on_unreadable" with
      | error fault => rfl
      | ok strict => cases strict <;> rfl
    · rfl

/-- What a history shows of a test file is what the disk held on which it was read. -/
lemma imports_readOn {memo : Memo} (wf : memo.WellFormed) {file : String}
    (unknown : memo.imports.lookup file = none) (past : List (Disk × Operation)) (now : Disk) :
    (run.reading now (run.replay past memo)).imports file
      = run.diskImports (run.readOn file now past memo) file := by
  induction past generalizing memo with
  | nil => simp [replay, reading, readOn, unknown]
  | cons event rest ih =>
    obtain ⟨wf', _⟩ := evolves_step run memo event wf
    rw [readOn]
    cases known : (run.step memo event).imports.lookup file with
    | none => exact ih wf' known
    | some facts =>
      -- The event that makes the imports known leaves what it shows on its disk as it was.
      have same : run.reading event.1 (run.step memo event) = run.reading event.1 memo :=
        reading_step wf event.2
      have shown := congrArg (·.imports file) same
      simp only [reading, known, unknown] at shown
      obtain ⟨_, grows⟩ := evolves_replay run rest (run.step memo event) wf'
      have kept := grows.imports known
      rw [Option.isSome_some, if_pos rfl, ← shown]
      change (run.reading now (run.replay rest (run.step memo event))).imports file = .ok facts
      simp only [reading, kept]

/-- What a run reads is what it would have read without dropping anything, filtered. -/
lemma imports_unfiltered (run : Run) (past : List (Disk × Operation)) (now : Disk) (file : String) :
    (run.reading now (run.replay past .empty)).imports file
      = (·.filter (isRelative ·.specifier)) <$> (run.unfiltered past now).imports file := by
  rw [imports_readOn Memo.wellFormed_empty rfl, diskImports_eq_filter]
  rfl

/-- A module is written as a relative specifier. -/
lemma isRelative_target {testFile target : String}
    (spelled : run.target disk testFile moduleFile = .ok target) : isRelative target := by
  obtain ⟨path, _, spelled⟩ := Outcome.bind_eq_ok.mp spelled
  obtain ⟨extensions, _, spelled⟩ := Outcome.bind_eq_ok.mp spelled
  obtain ⟨index, _, spelled⟩ := Outcome.bind_eq_ok.mp spelled
  obtain ⟨ordered, _, spelled⟩ := Outcome.bind_eq_ok.mp spelled
  simp only at spelled
  split at spelled
  · cases spelled
  · cases spelled
    exact Specifier.isRelative_ofParts _ _ _

/-- Imports of installed packages bring in nothing. -/
lemma importsName_filter (index_ne : indexName ≠ "") {target : String} (relative : isRelative target)
    (facts : List ImportFact) :
    importsName (.string indexName) target name (facts.filter (isRelative ·.specifier))
      = importsName (.string indexName) target name facts := by
  rw [importsName_eq, importsName_eq, List.any_filter]
  congr 2
  funext fact
  have kept : fact.brings indexName target name → isRelative fact.specifier := by
    intro brings
    rw [ImportFact.brings, Bool.and_eq_true] at brings
    exact (Specifier.isRelative_congr index_ne brings.1).mpr relative
  cases brings : fact.brings indexName target name with
  | false => rw [Bool.and_false]
  | true => rw [Bool.and_true, kept brings]

end Run

namespace Reading

variable {reading whole : Reading} {run : Run} {disk : Disk} {indexName name moduleFile : String}

section

variable (index_ne : indexName ≠ "")
  (filtered : ∀ file, reading.imports file
    = (·.filter (isRelative ·.specifier)) <$> whole.imports file)
include index_ne filtered

/-- The search goes the same way through all imports and through the relative ones. -/
lemma coveringFile_filter (files : List String) :
    reading.coveringFile run disk (.string indexName) name moduleFile files
      = whole.coveringFile run disk (.string indexName) name moduleFile files := by
  induction files with
  | nil => rfl
  | cons testFile rest ih =>
    rw [coveringFile, coveringFile, filtered, ih]
    cases spelled : run.target disk testFile moduleFile with
    | error fault => rfl
    | ok target =>
      cases whole.imports testFile with
      | error fault => rfl
      | ok facts =>
        have relative := Run.isRelative_target spelled
        simp only [Outcome.ok_bind, Functor.map, Except.map,
          Run.importsName_filter index_ne relative]

/-- A reading that drops imports of installed packages comes to the same answers about coverage. -/
lemma isCovered_filter (hasIndex : run.config.get "index_name" = .ok (.string indexName))
    (files : reading.files = whole.files) :
    reading.isCovered run disk name moduleFile = whole.isCovered run disk name moduleFile := by
  rw [isCovered, isCovered, hasIndex, files]
  simp only [Outcome.ok_bind, coveringFile_filter index_ne filtered]

end

end Reading

namespace Run

/-- Under an index name that is not empty, a specifier that spells the same module as a relative one
is relative. So a run answers about coverage as if it dropped no import, whatever was asked before
and however the disk changed in the meantime. -/
theorem isCovered_unfiltered {run : Run} {indexName : String}
    (hasIndex : run.config.get "index_name" = .ok (.string indexName)) (index_ne : indexName ≠ "") :
    (∀ index specifier target, index ≠ "" → sameModule index specifier target →
      isRelative target → isRelative specifier) ∧
    ∀ past now name moduleFile,
      run.ask now (run.replay past .empty) (.isCovered name moduleFile)
        = .verdict <$> (run.unfiltered past now).isCovered run now name moduleFile := by
  refine ⟨fun index specifier target ne same relative => ?_, fun past now name moduleFile => ?_⟩
  · exact (Specifier.isRelative_congr ne same).mpr relative
  · have same : (run.reading now (run.replay past .empty)).isCovered run now name moduleFile
        = (run.unfiltered past now).isCovered run now name moduleFile :=
      Reading.isCovered_filter index_ne (imports_unfiltered run past now) hasIndex rfl
    rw [ask_eq_answer (wellFormed_replay run past), Reading.answer, same]

/-- A project whose test file imports one name from a package and another one from a module. -/
def packagedDisk : Disk :=
  ⟨⟨[(["lib"], .directory), (["lib", "index.ts"], .file []), (["test"], .directory),
    (["test", "lib.test.ts"],
      .file (Text.encode "import {g} from 'lib'\nimport {f} from '../lib'"))]⟩, []⟩

/-- The run drops the import from the package. It answers about both names as if it had not. -/
theorem isCovered_unfiltered_packaged :
    sampleRun.config.get "index_name" = .ok (.string "index") ∧
      sampleRun.ask packagedDisk .empty (.importFacts "/test/lib.test.ts")
        = .ok (.facts [⟨"../lib", ⟨["f"], none, none⟩⟩]) ∧
      (sampleRun.unfiltered [] packagedDisk).imports "/test/lib.test.ts"
        = .ok [⟨"lib", ⟨["g"], none, none⟩⟩, ⟨"../lib", ⟨["f"], none, none⟩⟩] ∧
      ∀ name ∈ ["f", "g"],
        sampleRun.ask packagedDisk .empty (.isCovered name "/lib/index.ts")
          = .verdict <$> (sampleRun.unfiltered [] packagedDisk).isCovered sampleRun packagedDisk name
              "/lib/index.ts" := by
  have kept : (sampleRun.reading packagedDisk .empty).imports "/test/lib.test.ts"
      = .ok [⟨"../lib", ⟨["f"], none, none⟩⟩] := by decide +kernel
  refine ⟨rfl, ?_, by decide +kernel, fun name _ => ?_⟩
  · rw [ask_eq_answer Memo.wellFormed_empty, Reading.answer, kept]
    rfl
  · exact (isCovered_unfiltered rfl (by decide)).2 [] packagedDisk name "/lib/index.ts"

end Run

end ExportCover
