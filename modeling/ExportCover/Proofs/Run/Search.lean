import ExportCover.Proofs.Config.Typed
import ExportCover.Proofs.Path.Denotation
import ExportCover.Proofs.Run.Recall

/-!
# The search for a covering file

Under texts for the index name and the extensions, a search for a covering file compares imports
with the spelling of the module in the test file at hand. A file that the search ends with has been
read and holds a matching import (`Reading.exists_brings`), and where all test files can be read the
search is exhaustive (`Reading.isCovered_eq`).
-/

namespace ExportCover

namespace Specifier

open ExportCover.Path

/-- How a module file is spelled in a test file, both named from the root. -/
def spelling (extensions : List String) (indexName testFile moduleFile : String) : String :=
  ofFile (renderNames (relative (ofText [] moduleFile) (ofText [] (directoryPart testFile))))
    extensions indexName

/-- Folding separators twice is folding them once. -/
lemma foldSeparators_idem (s : String) :
    foldSeparators (foldSeparators s) = foldSeparators s := by
  apply foldSeparators_eq_self
  intro mem
  rw [foldSeparators, String.toList_ofList] at mem
  obtain ⟨c, _, e⟩ := List.mem_map.mp mem
  split at e
  next => cases e
  next ne => exact ne (by rw [e]; rfl)

/-- The specifier of a file does not depend on the separators in its path. -/
lemma ofFile_foldSeparators (path : String) (extensions : List String) (indexName : String) :
    ofFile (foldSeparators path) extensions indexName = ofFile path extensions indexName := by
  rw [ofFile, foldSeparators_idem]
  rfl

end Specifier

/-- The import brings in a name from the module that is spelled `target`. -/
def ImportFact.brings (indexName target name : String) (fact : ImportFact) : Bool :=
  Specifier.sameModule indexName fact.specifier target && fact.bound.names.contains name

namespace Run

variable {run : Run} {extensions : List String} {indexName : String}

/-- The target of a module in a test file is its spelling. -/
lemma target_eq_spelling (disk : Disk)
    (hasExtensions : run.config.get "extensions" = .ok (.texts extensions))
    (hasIndex : run.config.get "index_name" = .ok (.string indexName)) {testFile moduleFile}
    (testRooted : Path.isAbsolute testFile) (moduleRooted : Path.isAbsolute moduleFile) :
    run.target disk testFile moduleFile
      = .ok (Specifier.spelling extensions indexName testFile moduleFile) := by
  rw [target, Specifier.relativePath_eq testRooted moduleRooted, Outcome.ok_bind,
    Config.specifierOf_eq hasExtensions hasIndex, Specifier.ofFile_foldSeparators,
    Specifier.spelling]

/-- Every value can stand for the index name when a module is spelled. -/
lemma exists_target (disk : Disk) {index : Json}
    (hasExtensions : run.config.get "extensions" = .ok (.texts extensions))
    (hasIndex : run.config.get "index_name" = .ok index) {testFile moduleFile}
    (testRooted : Path.isAbsolute testFile) (moduleRooted : Path.isAbsolute moduleFile) :
    ∃ target, run.target disk testFile moduleFile = .ok target := by
  rw [target, Specifier.relativePath_eq testRooted moduleRooted, Outcome.ok_bind,
    Config.specifierOf, hasExtensions, Outcome.ok_bind, hasIndex, Outcome.ok_bind,
    Config.orderedExtensions_texts]
  exact ⟨_, rfl⟩

/-- Imports are searched for one that brings in the name. -/
lemma importsName_eq {target name : String} (facts : List ImportFact) :
    importsName (.string indexName) target name facts
      = .ok (facts.any (·.brings indexName target name)) := by
  induction facts with
  | nil => rfl
  | cons fact rest ih =>
    rw [importsName, Config.sameModule_eq, Outcome.ok_bind, List.any_cons, ih]
    change (if fact.brings indexName target name = true then _ else _) = _
    cases fact.brings indexName target name with
    | true => rfl
    | false => rfl

end Run

namespace Reading

variable {reading : Reading} {run : Run} {disk : Disk} {indexName name moduleFile : String}

/-- A covering file is one of the test files and holds an import that brings in the name. -/
lemma exists_brings {files : List String} {testFile : String}
    (found : reading.coveringFile run disk (.string indexName) name moduleFile files
      = .ok (some testFile)) :
    testFile ∈ files ∧ ∃ target facts, run.target disk testFile moduleFile = .ok target ∧
      reading.imports testFile = .ok facts ∧ facts.any (·.brings indexName target name) := by
  induction files with
  | nil => cases found
  | cons first rest ih =>
    obtain ⟨target, spelled, found⟩ := Outcome.bind_eq_ok.mp found
    obtain ⟨facts, read, found⟩ := Outcome.bind_eq_ok.mp found
    rw [Run.importsName_eq, Outcome.ok_bind] at found
    cases hit : facts.any (·.brings indexName target name) with
    | true =>
      rw [hit] at found
      cases found
      exact ⟨List.mem_cons_self, target, facts, spelled, read, hit⟩
    | false =>
      rw [hit] at found
      obtain ⟨mem, witness⟩ := ih found
      exact ⟨List.mem_cons_of_mem _ mem, witness⟩

/-- Where all test files can be read the search goes through all of their imports. -/
lemma coveringFile_eq {extensions : List String} {facts : String → List ImportFact}
    (hasExtensions : run.config.get "extensions" = .ok (.texts extensions))
    (hasIndex : run.config.get "index_name" = .ok (.string indexName))
    (moduleRooted : Path.isAbsolute moduleFile) {files : List String}
    (rooted : ∀ testFile ∈ files, Path.isAbsolute testFile)
    (read : ∀ testFile ∈ files, reading.imports testFile = .ok (facts testFile)) :
    reading.coveringFile run disk (.string indexName) name moduleFile files
      = .ok (files.find? fun testFile => (facts testFile).any
        (·.brings indexName (Specifier.spelling extensions indexName testFile moduleFile)
          name)) := by
  induction files with
  | nil => rfl
  | cons testFile rest ih =>
    obtain ⟨testRooted, restRooted⟩ := List.forall_mem_cons.mp rooted
    obtain ⟨testRead, restRead⟩ := List.forall_mem_cons.mp read
    rw [coveringFile, Run.target_eq_spelling disk hasExtensions hasIndex testRooted moduleRooted,
      Outcome.ok_bind, testRead, Outcome.ok_bind, Run.importsName_eq, Outcome.ok_bind,
      ih restRooted restRead, List.find?_cons]
    cases (facts testFile).any
        (·.brings indexName (Specifier.spelling extensions indexName testFile moduleFile) name) with
    | true => rfl
    | false => rfl

/-- Where all test files can be read, a name is covered if one of their imports brings it in. -/
lemma isCovered_eq {extensions : List String} {facts : String → List ImportFact} {place files}
    (hasExtensions : run.config.get "extensions" = .ok (.texts extensions))
    (hasIndex : run.config.get "index_name" = .ok (.string indexName))
    (resolved : disk.resolveFrom run.root moduleFile = .ok place)
    (found : reading.files = .ok files) (rooted : ∀ testFile ∈ files, Path.isAbsolute testFile)
    (read : ∀ testFile ∈ files, reading.imports testFile = .ok (facts testFile)) (name : String) :
    reading.isCovered run disk name moduleFile
      = .ok (files.any fun testFile => (facts testFile).any (·.brings indexName
        (Specifier.spelling extensions indexName testFile (Path.render place)) name)) := by
  rw [isCovered, resolved, Outcome.ok_bind, hasIndex, Outcome.ok_bind, found, Outcome.ok_bind,
    coveringFile_eq hasExtensions hasIndex (Path.isAbsolute_render place) rooted read,
    Outcome.ok_bind, Outcome.pure_eq, Except.ok.injEq]
  rw [Bool.eq_iff_iff, List.find?_isSome, List.any_eq_true]

end Reading

namespace Run

/-- A project whose only test file imports from the index module of a directory beside its own. -/
def sampleDisk : Disk :=
  ⟨⟨[(["lib"], .directory), (["lib", "index.ts"], .file []), (["test"], .directory),
    (["test", "lib.test.ts"], .file (Text.encode "import {f} from '../lib'"))]⟩, []⟩

/-- A run over the tests of the sample project. -/
def sampleRun : Run := ⟨"/test", Config.default.set "extensions" (.texts [".ts"])⟩

/-- A walk over the sample project meets its test file and nothing else. -/
lemma walk_sample (query : Discovery.Query)
    (suffix : Discovery.hasSuffix "lib.test.ts" query.suffixes = .ok true) :
    Discovery.walk sampleDisk.tree query [] [["test"]] = [.found ["test", "lib.test.ts"]] := by
  have located : sampleDisk.tree.locate ["test"] = .ok ["test"] := rfl
  have isDirectory : sampleDisk.tree.isDirectoryAt ["test"] = true := rfl
  have names : sampleDisk.tree.namesIn ["test"] = ["lib.test.ts"] := List.mergeSort_singleton _
  have status : sampleDisk.tree.status ["test", "lib.test.ts"]
      = .ok (.file (Text.encode "import {f} from '../lib'")) := rfl
  have canonical : sampleDisk.tree.canonical ["test", "lib.test.ts"] = ["test", "lib.test.ts"] :=
    rfl
  simp [Discovery.walk, located, isDirectory, names, Discovery.inspect, status, suffix, canonical,
    Discovery.eventsOf, Discovery.endsWalk, Discovery.directoriesOf]

/-- The test files of the sample project. -/
lemma files_sample :
    (sampleRun.reading sampleDisk .empty).files = .ok ["/test/lib.test.ts"] := by
  have query : sampleRun.query
      = .ok ⟨.ofTexts Discovery.defaultSuffixes, Discovery.defaultExclusions⟩ := rfl
  have root : Path.ofText sampleDisk.cwd sampleRun.root = ["test"] := rfl
  have walked :=
    walk_sample ⟨.ofTexts Discovery.defaultSuffixes, Discovery.defaultExclusions⟩ rfl
  simp only [reading, Memo.empty, diskFiles, query, Outcome.ok_bind, Discovery.testFiles, root,
    walked]
  rfl

/-- The imports of the sample project. -/
lemma imports_sample : ∀ testFile ∈ ["/test/lib.test.ts"],
    (sampleRun.reading sampleDisk .empty).imports testFile
      = .ok [⟨"../lib", ⟨["f"], none, none⟩⟩] := by
  decide +kernel

/-- The module of the sample project is where it is written. -/
lemma resolveFrom_sample :
    sampleDisk.resolveFrom sampleRun.root "/lib/index.ts" = .ok ["lib", "index.ts"] := by
  decide +kernel

/-- The sample project covers exactly the name that its test file imports. -/
lemma isCovered_sample (name : String) :
    (sampleRun.reading sampleDisk .empty).isCovered sampleRun sampleDisk name "/lib/index.ts"
      = .ok (decide (name = "f")) := by
  have hasIndex : sampleRun.config.get "index_name" = .ok (.string "index") := rfl
  have spelled : Specifier.spelling [".ts"] "index" "/test/lib.test.ts"
      (Path.render ["lib", "index.ts"]) = "../lib/" := by
    rw [Specifier.spelling, Specifier.ofFile, Specifier.stem_singleton]
    decide +kernel
  have same : Specifier.sameModule "index" "../lib" "../lib/" := rfl
  rw [Reading.isCovered_eq rfl hasIndex resolveFrom_sample files_sample (by decide +kernel)
    imports_sample]
  simp [spelled, ImportFact.brings, same]

end Run

end ExportCover
