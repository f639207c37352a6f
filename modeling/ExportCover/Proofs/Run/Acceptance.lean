import ExportCover.Proofs.Path.Spelling
import ExportCover.Proofs.Run.Diagnosis

/-!
# Coverage and the accepted spellings

A name is covered by an import exactly if the specifier of the import is one of the accepted
spellings of the module. A search goes through the test files in order. It ends at the first import
through an accepted spelling, or at the first test file that cannot be read, or after the last test
file (`accepted_spellings`).
-/

namespace ExportCover

namespace Reading

variable {reading : Reading} {run : Run} {disk : Disk} {extensions : List String}
  {indexName name moduleFile : String}

section

variable (hasExtensions : run.config.get "extensions" = .ok (.texts extensions))
  (hasIndex : run.config.get "index_name" = .ok (.string indexName))
  (moduleRooted : Path.isAbsolute moduleFile)
include hasExtensions hasIndex moduleRooted

/-- A step of the search: the imports of the file are read, and the search ends if one of them
brings in the name. -/
lemma coveringFile_cons {testFile : String} (testRooted : Path.isAbsolute testFile)
    (rest : List String) :
    reading.coveringFile run disk (.string indexName) name moduleFile (testFile :: rest)
      = (do
        let facts ← reading.imports testFile
        if facts.any (·.brings indexName
            (Specifier.spelling extensions indexName testFile moduleFile) name) then
          return some testFile
        reading.coveringFile run disk (.string indexName) name moduleFile rest) := by
  rw [coveringFile, Run.target_eq_spelling disk hasExtensions hasIndex testRooted moduleRooted,
    Outcome.ok_bind]
  simp only [Run.importsName_eq, Outcome.ok_bind]

/-- A file with a matching import ends the search, unless a file before it did. -/
lemma coveringFile_of_hit {testFile : String} {facts : List ImportFact} (after : List String)
    {before : List String} (rooted : ∀ file ∈ before ++ testFile :: after, Path.isAbsolute file)
    (read : reading.imports testFile = .ok facts)
    (hit : facts.any (·.brings indexName
      (Specifier.spelling extensions indexName testFile moduleFile) name)) :
    (∃ found, reading.coveringFile run disk (.string indexName) name moduleFile
        (before ++ testFile :: after) = .ok (some found)) ∨
      ∃ earlier ∈ before, ∃ fault, reading.imports earlier = .error fault ∧
        reading.coveringFile run disk (.string indexName) name moduleFile
          (before ++ testFile :: after) = .error fault := by
  induction before with
  | nil =>
    left
    refine ⟨testFile, ?_⟩
    rw [List.nil_append, coveringFile_cons hasExtensions hasIndex moduleRooted (rooted _ (by simp)),
      read, Outcome.ok_bind, if_pos hit]
    rfl
  | cons first before ih =>
    rw [List.cons_append] at rooted ⊢
    obtain ⟨firstRooted, rooted⟩ := List.forall_mem_cons.mp rooted
    rw [coveringFile_cons hasExtensions hasIndex moduleRooted firstRooted]
    cases firstRead : reading.imports first with
    | error fault => exact .inr ⟨first, List.mem_cons_self, fault, firstRead, rfl⟩
    | ok facts' =>
      rw [Outcome.ok_bind]
      split
      · exact .inl ⟨first, rfl⟩
      · obtain found | ⟨earlier, mem, failed⟩ := ih rooted
        · exact .inl found
        · exact .inr ⟨earlier, List.mem_cons_of_mem _ mem, failed⟩

/-- Without a matching import in any file that can be read, the search ends without a file or at a
file that cannot be read. -/
lemma coveringFile_of_miss {files : List String} (rooted : ∀ file ∈ files, Path.isAbsolute file)
    (miss : ∀ testFile ∈ files, ∀ facts, reading.imports testFile = .ok facts →
      ¬ facts.any (·.brings indexName
        (Specifier.spelling extensions indexName testFile moduleFile) name)) :
    reading.coveringFile run disk (.string indexName) name moduleFile files = .ok none ∨
      ∃ testFile ∈ files, ∃ fault, reading.imports testFile = .error fault ∧
        reading.coveringFile run disk (.string indexName) name moduleFile files
          = .error fault := by
  induction files with
  | nil => exact .inl rfl
  | cons first rest ih =>
    obtain ⟨firstRooted, rooted⟩ := List.forall_mem_cons.mp rooted
    obtain ⟨firstMiss, miss⟩ := List.forall_mem_cons.mp miss
    rw [coveringFile_cons hasExtensions hasIndex moduleRooted firstRooted]
    cases firstRead : reading.imports first with
    | error fault => exact .inr ⟨first, List.mem_cons_self, fault, firstRead, rfl⟩
    | ok facts =>
      rw [Outcome.ok_bind, if_neg (firstMiss facts firstRead)]
      obtain none | ⟨testFile, mem, failed⟩ := ih rooted miss
      · exact .inl none
      · exact .inr ⟨testFile, List.mem_cons_of_mem _ mem, failed⟩

end

/-- A name is covered if the search ends with a file. -/
lemma isCovered_eq_map {place : Path} {files : List String}
    (hasIndex : run.config.get "index_name" = .ok (.string indexName))
    (resolved : disk.resolveFrom run.root moduleFile = .ok place)
    (found : reading.files = .ok files) :
    reading.isCovered run disk name moduleFile
      = Option.isSome <$> reading.coveringFile run disk (.string indexName) name
          (Path.render place) files := by
  rw [isCovered, resolved, Outcome.ok_bind, hasIndex, Outcome.ok_bind, found, Outcome.ok_bind]
  rfl

end Reading

namespace Run

open Specifier

/-- One of the imports of a test file brings in the name through an accepted spelling of the
module. -/
def BringsAccepted (run : Run) (disk : Disk) (extensions : List String) (indexName : String)
    (facts : List ImportFact) (testFile moduleFile name : String) : Prop :=
  ∃ fact ∈ facts, name ∈ fact.bound.names ∧
    ∃ target, run.target disk testFile moduleFile = .ok target ∧
      Accepted extensions indexName target moduleFile fact.specifier

variable {run : Run} {disk : Disk} {extensions : List String} {indexName : String}

/-- Imports through accepted spellings are the imports that bring in the name. -/
lemma bringsAccepted_iff (hasExtensions : run.config.get "extensions" = .ok (.texts extensions))
    (hasIndex : run.config.get "index_name" = .ok (.string indexName))
    (index_ne : indexName ≠ "") (index_free : '/' ∉ indexName.toList)
    (nonempty : ∀ extension ∈ extensions, extension ≠ "") {place : Path} (normal : place.IsNormal)
    (plain : ∀ name ∈ place, '\\' ∉ name.toList) {testFile : String}
    (rooted : Path.isAbsolute testFile)
    (apart : ¬ place <+: Path.ofText [] (Path.directoryPart testFile)) {facts : List ImportFact}
    {name : String} :
    run.BringsAccepted disk extensions indexName facts testFile (Path.render place) name ↔
      facts.any (·.brings indexName
        (spelling extensions indexName testFile (Path.render place)) name) := by
  have spelled := target_eq_spelling disk hasExtensions hasIndex rooted
    (Path.isAbsolute_render place)
  have accepted := sameModule_iff_accepted (Path.ofText [] (Path.directoryPart testFile)) index_ne
    index_free nonempty normal plain apart
  simp only [BringsAccepted, spelled, Except.ok.injEq, exists_eq_left', List.any_eq_true,
    ImportFact.brings, Bool.and_eq_true, List.contains_iff_mem]
  simp only [spelling, Path.ofText_render normal, accepted]
  grind

/-- The accepted spellings are exact. In every test file that a module is not above, the specifiers
that spell the module are the accepted spellings of its target. So an import of a name through one
of them covers the name, unless the search fails at an unreadable test file before it, and without
such an import the name is not covered, unless the search fails at an unreadable test file. -/
theorem accepted_spellings (run : Run) (disk : Disk) (past : List (Disk × Operation))
    {extensions : List String} {indexName : String} {place : Path}
    (hasExtensions : run.config.get "extensions" = .ok (.texts extensions))
    (hasIndex : run.config.get "index_name" = .ok (.string indexName))
    (index_ne : indexName ≠ "") (index_free : '/' ∉ indexName.toList)
    (nonempty : ∀ extension ∈ extensions, extension ≠ "") (normal : place.IsNormal)
    (plain : ∀ name ∈ place, '\\' ∉ name.toList) :
    (∀ testFile, Path.isAbsolute testFile →
      ¬ place <+: Path.ofText [] (Path.directoryPart testFile) →
      ∃ target, run.target disk testFile (Path.render place) = .ok target ∧
        ∀ specifier, sameModule indexName specifier target ↔
          Accepted extensions indexName target (Path.render place) specifier) ∧
    ∀ moduleFile files name, disk.resolveFrom run.root moduleFile = .ok place →
      run.ask disk (run.replay past .empty) .testFiles = .ok (.files files) →
      (∀ testFile ∈ files, ¬ place <+: Path.ofText [] (Path.directoryPart testFile)) →
      (∀ before testFile after facts, files = before ++ testFile :: after →
        run.ask disk (run.replay past .empty) (.importFacts testFile) = .ok (.facts facts) →
        run.BringsAccepted disk extensions indexName facts testFile (Path.render place) name →
        run.ask disk (run.replay past .empty) (.isCovered name moduleFile) = .ok (.verdict true) ∨
          ∃ earlier ∈ before, ∃ fault,
            run.ask disk (run.replay past .empty) (.importFacts earlier) = .error fault ∧
            run.ask disk (run.replay past .empty) (.isCovered name moduleFile) = .error fault) ∧
      ((∀ testFile ∈ files, ∀ facts,
          run.ask disk (run.replay past .empty) (.importFacts testFile) = .ok (.facts facts) →
          ¬ run.BringsAccepted disk extensions indexName facts testFile (Path.render place) name) →
        run.ask disk (run.replay past .empty) (.isCovered name moduleFile) = .ok (.verdict false) ∨
          ∃ testFile ∈ files, ∃ fault,
            run.ask disk (run.replay past .empty) (.importFacts testFile) = .error fault ∧
            run.ask disk (run.replay past .empty) (.isCovered name moduleFile) = .error fault) := by
  have wf := wellFormed_replay run past
  have moduleRooted := Path.isAbsolute_render place
  constructor
  · intro testFile rooted apart
    refine ⟨_, target_eq_spelling disk hasExtensions hasIndex rooted moduleRooted, ?_⟩
    rw [spelling, Path.ofText_render normal]
    exact sameModule_iff_accepted _ index_ne index_free nonempty normal plain apart
  intro moduleFile files name resolved found apart
  simp only [ask_eq_answer wf, Reading.answer] at found ⊢
  obtain ⟨_, found, same⟩ := Outcome.map_eq_ok.mp found
  cases same
  have rooted := rooted_reading wf found
  -- The name is covered if a search through the files finds an import that is accepted.
  rw [Reading.isCovered_eq_map hasIndex resolved found]
  have brings : ∀ testFile ∈ files, ∀ facts,
      run.BringsAccepted disk extensions indexName facts testFile (Path.render place) name ↔ _ :=
    fun testFile mem facts => bringsAccepted_iff hasExtensions hasIndex index_ne index_free nonempty
      normal plain (rooted testFile mem) (apart testFile mem)
  constructor
  · rintro before testFile after facts rfl read accepted
    obtain ⟨_, read, same⟩ := Outcome.map_eq_ok.mp read
    cases same
    have hit := (brings testFile (by simp) facts).mp accepted
    obtain ⟨covering, searched⟩ | ⟨earlier, mem, fault, failed, searched⟩ :=
      Reading.coveringFile_of_hit hasExtensions hasIndex moduleRooted after rooted read hit
    · rw [searched]
      exact .inl rfl
    · rw [searched]
      exact .inr ⟨earlier, mem, fault, by rw [failed]; rfl, rfl⟩
  · intro miss
    obtain searched | ⟨testFile, mem, fault, failed, searched⟩ :=
      Reading.coveringFile_of_miss hasExtensions hasIndex moduleRooted rooted
        fun testFile mem facts read hit => miss testFile mem facts
          (Outcome.map_eq_ok.mpr ⟨facts, read, rfl⟩) ((brings testFile mem facts).mpr hit)
    · rw [searched]
      exact .inl rfl
    · rw [searched]
      exact .inr ⟨testFile, mem, fault, by rw [failed]; rfl, rfl⟩

/-- In the sample project the index module is written `../lib/`, and the test file covers `f` by
the spelling without the separator. -/
theorem accepted_spellings_sample :
    IsSpelling "index" "../lib" true "../lib" ∧
      sampleRun.ask sampleDisk .empty (.isCovered "f" "/lib/index.ts") = .ok (.verdict true) := by
  have normal : Path.IsNormal ["lib", "index.ts"] := by decide +kernel
  have stemmed : stem "index.ts" [".ts"] = "index" := by
    rw [stem_singleton]
    decide +kernel
  have target : sampleRun.target sampleDisk "/test/lib.test.ts" (Path.render ["lib", "index.ts"])
      = .ok "../lib/" := by
    rw [target_eq_spelling sampleDisk rfl rfl (by decide +kernel) (by decide +kernel), spelling,
      ofFile, show Path.baseName _ = "index.ts" by decide +kernel, stemmed]
    decide +kernel
  have accepted : IsSpelling "index" "../lib" true "../lib" := .inr ⟨rfl, by decide +kernel⟩
  have brings : sampleRun.BringsAccepted sampleDisk [".ts"] "index"
      [⟨"../lib", ⟨["f"], none, none⟩⟩] "/test/lib.test.ts" (Path.render ["lib", "index.ts"])
      "f" := by
    refine ⟨_, List.mem_singleton_self _, List.mem_singleton_self _, "../lib/", target, ?_⟩
    rw [Accepted, show Path.baseName _ = "index.ts" by decide +kernel, stemmed]
    exact accepted
  have read := importFacts_sample "/test/lib.test.ts" (List.mem_singleton_self _)
  obtain covered | ⟨earlier, mem, _⟩ := ((accepted_spellings sampleRun sampleDisk [] rfl rfl
    (by decide +kernel) (by decide +kernel) (by decide +kernel) normal (by decide +kernel)).2
    _ _ "f" resolveFrom_sample testFiles_sample (by decide +kernel)).1 [] _ [] _ rfl read brings
  · exact ⟨accepted, covered⟩
  · cases mem

end Run

end ExportCover
