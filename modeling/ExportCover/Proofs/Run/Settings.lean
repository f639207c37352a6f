import ExportCover.Proofs.Run.Memo

/-!
# What a setting bears on

Two runs agree on some keys if they have one root and their configurations hold the same values
under these keys. A run looks for test files, matches imports, takes modules and collects exports by
the six keys of `Run.judging` alone, so that runs that agree on these judge coverage alike,
whatever else their configurations hold (`Reading.isCovered_congr`).
-/

namespace ExportCover

namespace Run

/-- Two runs have one root and the same values under some keys. -/
structure AgreeOn (keys : List String) (run run' : Run) : Prop where
  root : run.root = run'.root
  values : ∀ key ∈ keys, run.config.get? key = run'.config.get? key

/-- The keys that decide what is checked and what covers it. -/
def judging : List String :=
  ["test_suffixes", "exclude", "extensions", "index_name", "ignore_marker", "ignore"]

namespace AgreeOn

variable {keys : List String} {run run' : Run} {disk : Disk}

/-- Both runs find the same under a key on which they agree. -/
lemma get (agree : AgreeOn keys run run') {key : String} (mem : key ∈ keys) :
    run.config.get key = run'.config.get key := by
  rw [Config.get, Config.get, agree.values key mem]

/-- A switch on which they agree is on for both runs or for none. -/
lemma isOn (agree : AgreeOn keys run run') {key : String} (mem : key ∈ keys) :
    run.config.isOn key = run'.config.isOn key := by
  rw [Config.isOn, Config.isOn, agree.get mem]

/-- Both runs read the same listing under a key on which they agree. -/
lemma listing (agree : AgreeOn keys run run') {key : String} (mem : key ∈ keys) :
    run.config.listing key = run'.config.listing key := by
  rw [Config.listing, Config.listing, agree.get mem]

variable (agree : AgreeOn judging run run')
include agree

/-- Both runs exclude the same directories. -/
lemma exclusions : run.config.exclusions = run'.config.exclusions := by
  rw [Config.exclusions, Config.exclusions, agree.get (by decide)]

/-- Both runs find the same test files. -/
lemma diskFiles : run.diskFiles disk = run'.diskFiles disk := by
  have query : run.query = run'.query := by
    rw [query, query, agree.get (by decide), agree.exclusions]
  rw [Run.diskFiles, Run.diskFiles, query, agree.root]

/-- A module is spelled the same in both runs. -/
lemma target {testFile moduleFile : String} :
    run.target disk testFile moduleFile = run'.target disk testFile moduleFile := by
  have specifierOf (path : String) :
      run.config.specifierOf path = run'.config.specifierOf path := by
    rw [Config.specifierOf, Config.specifierOf, agree.get (show "extensions" ∈ judging by decide),
      agree.get (show "index_name" ∈ judging by decide)]
  simp only [Run.target, specifierOf]

/-- Both runs collect the same exports. -/
lemma exportsOf (program : Node) : run.exportsOf program = run'.exportsOf program := by
  rw [Run.exportsOf, Run.exportsOf, agree.get (by decide)]

/-- Both runs check the same modules. -/
lemma shouldCheck {moduleFile : String} :
    run.shouldCheck disk moduleFile = run'.shouldCheck disk moduleFile := by
  rw [Run.shouldCheck, Run.shouldCheck, agree.root, agree.listing (by decide),
    agree.listing (show "ignore" ∈ judging by decide)]

end AgreeOn

end Run

namespace Reading

variable {reading : Reading} {run run' : Run} {disk : Disk} {moduleFile : String}
  (agree : Run.AgreeOn Run.judging run run')
include agree

/-- The search through test files goes the same way in both runs. -/
lemma coveringFile_congr {index : Json} {name : String} (files : List String) :
    reading.coveringFile run disk index name moduleFile files
      = reading.coveringFile run' disk index name moduleFile files := by
  induction files with
  | nil => rfl
  | cons testFile rest ih =>
    rw [coveringFile, coveringFile, agree.target, ih]

/-- A lookup has the same outcome in both runs. -/
lemma isCovered_congr (name : String) :
    reading.isCovered run disk name moduleFile = reading.isCovered run' disk name moduleFile := by
  have index := agree.get (show "index_name" ∈ Run.judging by decide)
  simp only [isCovered, agree.root, index, coveringFile_congr agree]

omit agree in
/-- Where the lookups have the same outcomes, the same functions are reported. -/
lemma missingTests_congr {reading' : Reading} {file : String} {locale : Json}
    (same : ∀ name, reading.isCovered run disk name moduleFile
      = reading'.isCovered run' disk name moduleFile) (functions : List ExportedFunction) :
    reading.missingTests run disk moduleFile file locale functions
      = reading'.missingTests run' disk moduleFile file locale functions := by
  induction functions with
  | nil => rfl
  | cons function rest ih => rw [missingTests, missingTests, same, ih]

end Reading

end ExportCover
