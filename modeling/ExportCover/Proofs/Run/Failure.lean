import ExportCover.Proofs.Discovery.Walk
import ExportCover.Proofs.Run.Acceptance

/-!
# Lookups that fail

Under a well-typed configuration the search for test files cannot fail, and the imports of a file
are only refused if the file cannot be read as a source text and the configuration says to stop
there. So a lookup that fails names a test file that cannot be read (`Reading.exists_unreadable`).
Under any configuration the lookups of one module go the same way until they end: all that fail do
so with one fault (`Reading.isCovered_error`). The report about functions that are not covered fails
if and only if one of their lookups does (`Reading.exists_covered`, `Reading.exists_failed`).
-/

namespace ExportCover

namespace Run

variable {run : Run} {disk : Disk} {memo : Memo}

/-- Under a well-typed configuration the query holds its endings and exclusions. -/
lemma query_eq (typed : run.config.WellTyped) : run.query
    = .ok ⟨.ofTexts (run.config.textsOf "test_suffixes"), run.config.textsOf "exclude"⟩ := by
  rw [query, typed.get_texts rfl, Outcome.ok_bind, typed.exclusions_eq, Outcome.ok_bind,
    Listing.ofValue_texts]
  rfl

/-- Under a well-typed configuration the search for test files does not fail. -/
lemma exists_files (typed : run.config.WellTyped) :
    ∃ files, (run.reading disk memo).files = .ok files := by
  rw [reading]
  cases memo.testFiles? with
  | some files => exact ⟨files, rfl⟩
  | none =>
    simp only [diskFiles, query_eq typed, Outcome.ok_bind]
    rw [Discovery.testFiles_eq rfl]
    exact ⟨_, rfl⟩

/-- A run whose root leads to no other directory finds the test files of its root. -/
lemma diskFiles_flat {query : Discovery.Query} {directory place : Path}
    {findings : List Discovery.Finding} (asked : run.query = .ok query)
    (found : Discovery.Visit.findings disk.tree query ⟨directory, place⟩ = findings)
    (whole : query.suffixes.broken = false) (start : Path.ofText disk.cwd run.root = directory)
    (located : disk.tree.locate directory = .ok place)
    (isDirectory : disk.tree.isDirectoryAt place = true)
    (flat : Discovery.directoriesOf findings = []) :
    run.diskFiles disk
      = .ok ((findings.filterMap Discovery.Finding.file?).map Path.render) := by
  rw [diskFiles, asked, Outcome.ok_bind,
    Discovery.testFiles_flat whole start located isDirectory found flat]
  rfl

/-- A file that can be parsed gives the run its imports. -/
lemma diskImports_of_parsed {file : String} {facts : List ImportFact}
    (parsed : parsedImports disk file = .ok facts) : run.diskImports disk file = .ok facts := by
  rw [diskImports, parsed]
  rfl

/-- Where imports cannot be parsed, the file cannot be read as a source text. -/
lemma isUnreadable_of_parsedImports {file : String} {fault : Fault}
    (failed : parsedImports disk file = .error fault) : isUnreadable fault = true := by
  obtain noGrammar | ⟨grammar, _, failed⟩ := Outcome.bind_eq_error.mp failed
  · rw [Grammar.ofPath] at noGrammar
    split at noGrammar
    · cases noGrammar
    · cases noGrammar
      rfl
  obtain unread | ⟨source, _, failed⟩ := Outcome.bind_eq_error.mp failed
  · rw [Disk.read] at unread
    split at unread
    · cases unread
    · cases unread
      rfl
  obtain unknown | ⟨_, _, done⟩ := Outcome.bind_eq_error.mp failed
  · rw [Grammar.ofName] at unknown
    split at unknown
    · cases unknown
    · cases unknown
      rfl
  · cases done

/-- Reading the imports of a file only fails if the file cannot be read. -/
lemma exists_cause (typed : run.config.WellTyped) {file : String} {fault : Fault}
    (failed : (run.reading disk memo).imports file = .error fault) :
    ∃ cause, fault = .unreadableTest file cause := by
  rw [reading] at failed
  cases known : memo.imports.lookup file with
  | some facts =>
    simp only [known] at failed
    cases failed
  | none =>
    simp only [known] at failed
    rw [diskImports] at failed
    cases parsed : parsedImports disk file with
    | ok facts =>
      rw [parsed] at failed
      cases failed
    | error cause =>
      rw [parsed] at failed
      have unreadable := isUnreadable_of_parsedImports parsed
      simp only [tryCatch, tryCatchThe, MonadExceptOf.tryCatch, Except.tryCatch, unreadable,
        if_true] at failed
      rw [excuse, typed.isOn_eq rfl, Outcome.ok_bind] at failed
      split at failed
      · cases failed
        exact ⟨cause, rfl⟩
      · cases failed

/-- A specifier that ends with an index name which has no length cannot be compared. -/
lemma importsName_eq_error {index : Json} {target name : String} {fact : ImportFact}
    (rest : List ImportFact) (unsized : index.size? = none)
    (ends : Text.endsWith (Specifier.foldSeparators fact.specifier) ("/" ++ index.display)) :
    importsName index target name (fact :: rest) = .error .illTyped := by
  have strip : Config.stripIndex index (Specifier.foldSeparators fact.specifier)
      = .error .illTyped := by
    rw [Config.stripIndex, if_pos ends, unsized]
  rw [importsName, Config.sameModule, strip]
  rfl

/-- Where the search for one name in a list of imports fails, a search for another name that has not
ended fails in the same way. -/
lemma importsName_error {index : Json} {target name other : String} {facts : List ImportFact}
    {fault : Fault} (failed : importsName index target name facts = .error fault) :
    importsName index target other facts = .ok true ∨
      importsName index target other facts = .error fault := by
  induction facts with
  | nil => cases failed
  | cons fact rest ih =>
    rw [importsName] at failed ⊢
    refine Outcome.bind_ends_or_fails (· = .ok true) failed fun same _ failed => ?_
    split at failed
    · cases failed
    split
    · exact .inl rfl
    · exact ih failed

end Run

namespace Reading

variable {reading : Reading} {run : Run} {disk : Disk} {memo : Memo} {name moduleFile : String}

/-- Where the search for one name fails, a search for another name that has not ended fails in the
same way. -/
lemma coveringFile_error {index : Json} {other : String} {files : List String} {fault : Fault}
    (failed : reading.coveringFile run disk index name moduleFile files = .error fault) :
    (∃ testFile, reading.coveringFile run disk index other moduleFile files = .ok (some testFile)) ∨
      reading.coveringFile run disk index other moduleFile files = .error fault := by
  induction files with
  | nil => cases failed
  | cons testFile rest ih =>
    rw [coveringFile] at failed ⊢
    refine Outcome.bind_ends_or_fails (∃ file, · = .ok (some file)) failed fun target _ failed => ?_
    refine Outcome.bind_ends_or_fails (∃ file, · = .ok (some file)) failed fun facts _ failed => ?_
    obtain failed | ⟨found, searched, failed⟩ := Outcome.bind_eq_error.mp failed
    · obtain found | failed := Run.importsName_error failed
      · exact .inl ⟨testFile, by rw [found]; rfl⟩
      · exact .inr (by rw [failed]; rfl)
    cases found with
    | true => cases failed
    | false =>
      -- The search for the other name cannot fail here, since this one did not.
      cases searched' : Run.importsName index target other facts with
      | error cause =>
        obtain found | failed' := Run.importsName_error searched'
        · cases found.symm.trans searched
        · cases failed'.symm.trans searched
      | ok found =>
        cases found with
        | true => exact .inl ⟨testFile, rfl⟩
        | false => exact ih failed

/-- All lookups of one module that fail do so with one fault. -/
lemma isCovered_error {other : String} {fault : Fault}
    (failed : reading.isCovered run disk name moduleFile = .error fault) :
    reading.isCovered run disk other moduleFile = .ok true ∨
      reading.isCovered run disk other moduleFile = .error fault := by
  rw [isCovered] at failed ⊢
  refine Outcome.bind_ends_or_fails (· = .ok true) failed fun place _ failed => ?_
  refine Outcome.bind_ends_or_fails (· = .ok true) failed fun index _ failed => ?_
  refine Outcome.bind_ends_or_fails (· = .ok true) failed fun files _ failed => ?_
  obtain failed | ⟨found, _, done⟩ := Outcome.bind_eq_error.mp failed
  · obtain ⟨testFile, found⟩ | failed := coveringFile_error failed
    · exact .inl (by rw [found]; rfl)
    · exact .inr (by rw [failed]; rfl)
  · cases done

/-- A search only fails at a test file whose imports cannot be read. -/
lemma exists_fault_of_coveringFile {extensions : List String} {indexName : String}
    (hasExtensions : run.config.get "extensions" = .ok (.texts extensions))
    (hasIndex : run.config.get "index_name" = .ok (.string indexName))
    (moduleRooted : Path.isAbsolute moduleFile) {files : List String}
    (rooted : ∀ file ∈ files, Path.isAbsolute file) {fault : Fault}
    (failed : reading.coveringFile run disk (.string indexName) name moduleFile files
      = .error fault) :
    ∃ testFile ∈ files, reading.imports testFile = .error fault := by
  induction files with
  | nil => cases failed
  | cons first rest ih =>
    obtain ⟨firstRooted, rooted⟩ := List.forall_mem_cons.mp rooted
    rw [coveringFile_cons hasExtensions hasIndex moduleRooted firstRooted] at failed
    obtain unread | ⟨facts, _, failed⟩ := Outcome.bind_eq_error.mp failed
    · exact ⟨first, List.mem_cons_self, unread⟩
    · split at failed
      · cases failed
      · obtain ⟨testFile, mem, unread⟩ := ih rooted failed
        exact ⟨testFile, List.mem_cons_of_mem _ mem, unread⟩

/-- A lookup only fails because a test file cannot be read. -/
lemma exists_unreadable (wf : memo.WellFormed) (typed : run.config.WellTyped) {home : Path}
    (resolved : disk.resolveFrom run.root moduleFile = .ok home) {fault : Fault}
    (failed : (run.reading disk memo).isCovered run disk name moduleFile = .error fault) :
    ∃ testFile cause, fault = .unreadableTest testFile cause := by
  obtain ⟨files, found⟩ : ∃ files, (run.reading disk memo).files = .ok files :=
    Run.exists_files typed
  rw [isCovered_eq_map (typed.get_text rfl) resolved found] at failed
  obtain ⟨testFile, _, unread⟩ := exists_fault_of_coveringFile (typed.get_texts rfl)
    (typed.get_text rfl) (Path.isAbsolute_render home) (Run.rooted_reading wf found)
    (Outcome.map_eq_error.mp failed)
  obtain ⟨cause, rfl⟩ := Run.exists_cause typed unread
  exact ⟨testFile, cause, rfl⟩

/-- A lookup fails as it does at the first test file: the module cannot be spelled there, its
imports cannot be read or cannot be compared. -/
lemma isCovered_eq_error {place : Path} {index : Json} {testFile : String} {rest : List String}
    {fault : Fault} (resolved : disk.resolveFrom run.root moduleFile = .ok place)
    (hasIndex : run.config.get "index_name" = .ok index)
    (found : reading.files = .ok (testFile :: rest))
    (failed : (do
      let target ← run.target disk testFile (Path.render place)
      let facts ← reading.imports testFile
      Run.importsName index target name facts) = .error fault) :
    reading.isCovered run disk name moduleFile = .error fault := by
  rw [isCovered, resolved, Outcome.ok_bind, hasIndex, Outcome.ok_bind, found, Outcome.ok_bind,
    coveringFile]
  obtain failed | ⟨target, spelled, failed⟩ := Outcome.bind_eq_error.mp failed
  · rw [failed]
    rfl
  obtain failed | ⟨facts, read, failed⟩ := Outcome.bind_eq_error.mp failed
  · simp only [spelled, Outcome.ok_bind, failed, Outcome.error_bind]
  · simp only [spelled, Outcome.ok_bind, read, failed, Outcome.error_bind]

/-- A report fails as the search for the language does, or as the lookup of the first function. -/
lemma diagnose_eq_error {shown : String} {function : ExportedFunction}
    {rest : List ExportedFunction} {unchecked : List UncheckedExport} {fault : Fault}
    (relative : disk.relativeTo run.root moduleFile = .ok shown)
    (failed : run.config.get "locale" = .error fault ∨
      (∃ locale, run.config.get "locale" = .ok locale) ∧
        reading.isCovered run disk function.name moduleFile = .error fault) :
    reading.diagnose run disk ⟨function :: rest, unchecked⟩ moduleFile = .error fault := by
  rw [diagnose, relative, Outcome.ok_bind]
  obtain noLocale | ⟨⟨locale, hasLocale⟩, failed⟩ := failed
  · rw [noLocale]
    rfl
  · rw [hasLocale, Outcome.ok_bind, missingTests, failed]
    rfl

section Missing

variable {file language : String} {functions : List ExportedFunction}

/-- All values that name one language give one report. -/
lemma missingTests_locale {locale : Json} (speaks : Run.localeOf locale = .ok language) :
    reading.missingTests run disk moduleFile file locale functions
      = reading.missingTests run disk moduleFile file (.string language) functions := by
  induction functions with
  | nil => rfl
  | cons function rest ih =>
    rw [missingTests, missingTests, speaks, ih]
    rfl

/-- A step of the report: the function is looked up, and reported if it is not covered. -/
lemma missingTests_cons (function : ExportedFunction) (rest : List ExportedFunction) :
    reading.missingTests run disk moduleFile file (.string language) (function :: rest)
      = (do
        let covered ← reading.isCovered run disk function.name moduleFile
        let others ← reading.missingTests run disk moduleFile file (.string language) rest
        return (if covered then [] else [Diagnostic.missingTest function file language])
          ++ others) := by
  rw [missingTests]
  cases reading.isCovered run disk function.name moduleFile with
  | error fault => rfl
  | ok covered =>
    cases covered with
    | true =>
      cases reading.missingTests run disk moduleFile file (.string language) rest with
      | error fault => rfl
      | ok others => rfl
    | false => rfl

/-- Functions of two lists are reported one list after the other. -/
lemma missingTests_append (first second : List ExportedFunction) :
    reading.missingTests run disk moduleFile file (.string language) (first ++ second)
      = (do
        let errors ← reading.missingTests run disk moduleFile file (.string language) first
        let others ← reading.missingTests run disk moduleFile file (.string language) second
        return errors ++ others) := by
  induction first with
  | nil =>
    rw [List.nil_append, missingTests, Outcome.ok_bind]
    cases reading.missingTests run disk moduleFile file (.string language) second with
    | error fault => rfl
    | ok others => rfl
  | cons function rest ih =>
    rw [List.cons_append, missingTests_cons, missingTests_cons, ih]
    cases reading.isCovered run disk function.name moduleFile with
    | error fault => rfl
    | ok covered =>
      cases reading.missingTests run disk moduleFile file (.string language) rest with
      | error fault => rfl
      | ok errors =>
        cases reading.missingTests run disk moduleFile file (.string language) second with
        | error fault => rfl
        | ok others => simp only [Outcome.ok_bind, Outcome.pure_eq, List.append_assoc]

/-- If the report succeeds then all lookups did. -/
lemma exists_covered {errors : List Diagnostic}
    (reported : reading.missingTests run disk moduleFile file (.string language) functions
      = .ok errors) :
    ∀ function ∈ functions, ∃ covered,
      reading.isCovered run disk function.name moduleFile = .ok covered := by
  induction functions generalizing errors with
  | nil => exact nofun
  | cons function rest ih =>
    rw [missingTests_cons] at reported
    obtain ⟨covered, looked, reported⟩ := Outcome.bind_eq_ok.mp reported
    obtain ⟨others, reportedRest, _⟩ := Outcome.bind_eq_ok.mp reported
    exact List.forall_mem_cons.mpr ⟨⟨covered, looked⟩, ih reportedRest⟩

/-- If the report fails then a lookup did, with the same fault. -/
lemma exists_failed {fault : Fault}
    (failed : reading.missingTests run disk moduleFile file (.string language) functions
      = .error fault) :
    ∃ function ∈ functions, reading.isCovered run disk function.name moduleFile = .error fault := by
  induction functions with
  | nil => cases failed
  | cons function rest ih =>
    rw [missingTests_cons] at failed
    obtain looked | ⟨covered, _, failed⟩ := Outcome.bind_eq_error.mp failed
    · exact ⟨function, List.mem_cons_self, looked⟩
    obtain failed | ⟨others, _, done⟩ := Outcome.bind_eq_error.mp failed
    · obtain ⟨function', mem, looked⟩ := ih failed
      exact ⟨function', List.mem_cons_of_mem _ mem, looked⟩
    · cases done

/-- The functions that are not covered are reported in their order, and none of them twice. -/
lemma sublist_of_missingTests {errors : List Diagnostic}
    (reported : reading.missingTests run disk moduleFile file (.string language) functions
      = .ok errors) :
    errors.Sublist (functions.map (Diagnostic.missingTest · file language)) := by
  induction functions generalizing errors with
  | nil =>
    cases reported
    exact .slnil
  | cons function rest ih =>
    rw [missingTests_cons] at reported
    obtain ⟨covered, _, reported⟩ := Outcome.bind_eq_ok.mp reported
    obtain ⟨others, reportedRest, done⟩ := Outcome.bind_eq_ok.mp reported
    cases done
    cases covered with
    | true => exact (ih reportedRest).cons _
    | false => exact (ih reportedRest).cons_cons _

/-- Only functions of the list are reported. -/
lemma exists_of_mem_missingTests {errors : List Diagnostic}
    (reported : reading.missingTests run disk moduleFile file (.string language) functions
      = .ok errors) :
    ∀ diagnostic ∈ errors, ∃ function ∈ functions,
      diagnostic = Diagnostic.missingTest function file language := by
  intro diagnostic mem
  obtain ⟨function, offered, same⟩ :=
    List.mem_map.mp ((sublist_of_missingTests reported).subset mem)
  exact ⟨function, offered, same.symm⟩

end Missing

end Reading

end ExportCover
