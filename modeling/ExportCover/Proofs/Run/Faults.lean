import ExportCover.Proofs.Exports.Declarations
import ExportCover.Proofs.Run.Failure

/-!
# Faults about test files

An outcome spares test files if it is no fault that says that a test file cannot be read. Whatever a
run does beside reading imports spares them: following paths, looking settings up, searching for
test files, comparing specifiers and collecting exports (`Run.spares_exportsOf`). So a report on
exports spares test files if the imports that it reads do (`Reading.spares_diagnose`).
-/

namespace ExportCover

/-- The outcome is not that a test file cannot be read. -/
def Spares {α : Type} (outcome : Except Fault α) : Prop :=
  ∀ testFile cause, outcome ≠ .error (.unreadableTest testFile cause)

namespace Spares

variable {α β : Type}

/-- A success spares test files. -/
lemma ok (a : α) : Spares (.ok a : Except Fault α) :=
  nofun

/-- A fault of another kind spares test files. -/
lemma error {fault : Fault} (other : ∀ testFile cause, fault ≠ .unreadableTest testFile cause) :
    Spares (.error fault : Except Fault α) :=
  fun testFile cause same => other testFile cause (Except.error.inj same)

/-- A value of the wrong type is a fault of another kind. -/
lemma illTyped : Spares (.error .illTyped : Except Fault α) :=
  error nofun

/-- A sequence spares test files if its steps do. -/
lemma bind {outcome : Except Fault α} {next : α → Except Fault β} (first : Spares outcome)
    (rest : ∀ a, Spares (next a)) : Spares (outcome >>= next) := by
  cases outcome with
  | error fault =>
    intro testFile cause same
    cases same
    exact first testFile cause rfl
  | ok a => exact rest a

/-- An outcome in another form spares what it spared. -/
lemma map {outcome : Except Fault α} (first : Spares outcome) (f : α → β) :
    Spares (f <$> outcome) :=
  fun testFile cause same => first testFile cause (Outcome.map_eq_error.mp same)

/-- What turns out a success spares test files. -/
lemma of_eq_ok {outcome : Except Fault α} {a : α} (same : outcome = .ok a) : Spares outcome :=
  same ▸ ok a

/-- Going through a list spares test files if each step does. -/
lemma mapM {f : α → Except Fault β} (each : ∀ a, Spares (f a)) (as : List α) :
    Spares (as.mapM f) := by
  induction as with
  | nil => exact ok []
  | cons a rest ih =>
    rw [List.mapM_cons]
    exact (each a).bind fun b => ih.bind fun bs => ok (b :: bs)

/-- Folding a list spares test files if each step does. -/
lemma foldlM {f : β → α → Except Fault β} (each : ∀ b a, Spares (f b a)) (as : List α) (b : β) :
    Spares (as.foldlM f b) := by
  induction as generalizing b with
  | nil => exact ok b
  | cons a rest ih =>
    rw [List.foldlM_cons]
    exact (each b a).bind ih

end Spares

section Settings

variable {config : Config} {disk : Disk} {run : Run}

/-- Looking up a key is not about test files. -/
lemma Config.spares_get (key : String) : Spares (config.get key) := by
  rw [get]
  split
  · exact .ok _
  · exact .error (by simp)

/-- Reading a listing is not about test files. -/
lemma Listing.spares_ofValue (value : Json) : Spares (ofValue value) := by
  rw [ofValue]
  split
  · exact .ok _
  · exact .illTyped

/-- Searching a listing is not about test files. -/
lemma Listing.spares_any (listing : Listing) (holds : String → Bool) :
    Spares (listing.any holds) := by
  rw [any]
  split
  · exact .ok _
  · split
    · exact .illTyped
    · exact .ok _

/-- Reading a switch is not about test files. -/
lemma Config.spares_isOn (key : String) : Spares (config.isOn key) :=
  (spares_get key).bind fun _ => .ok _

/-- Reading the exclusions is not about test files. -/
lemma Config.spares_exclusions : Spares config.exclusions := by
  refine (spares_get "exclude").bind fun value => ?_
  split
  · exact .illTyped
  · split
    · exact .ok _
    · exact .illTyped

/-- Spelling a file is not about test files. -/
lemma Config.spares_specifierOf (path : String) : Spares (config.specifierOf path) := by
  refine (spares_get _).bind fun extensions => (spares_get _).bind fun index => ?_
  have ordered : Spares (orderedExtensions extensions) := by
    rw [orderedExtensions]
    split
    · exact .illTyped
    · split
      · exact .ok _
      · exact .illTyped
  refine ordered.bind fun listing => ?_
  dsimp only
  split
  · exact .illTyped
  · exact .ok _

/-- Comparing specifiers is not about test files. -/
lemma Config.spares_sameModule (index : Json) (a b : String) :
    Spares (sameModule index a b) := by
  have strip (specifier : String) : Spares (stripIndex index specifier) := by
    rw [stripIndex]
    split
    · split
      · exact .ok _
      · exact .illTyped
    · exact .ok _
  exact (strip _).bind fun a => (strip _).bind fun b => .ok _

/-- Resolving names is not about test files. -/
lemma FileTree.spares_resolveFrom (tree : FileTree) (start : Spelled) (names : List String) :
    Spares (tree.resolveFrom start names) := by
  rw [resolveFrom]
  split
  · exact .error (by simp)
  · exact .ok _

/-- Resolving a path text is not about test files. -/
lemma Disk.spares_resolve (text : String) : Spares (disk.resolve text) := by
  rw [resolve]
  split
  · exact disk.tree.spares_resolveFrom _ _
  · exact disk.tree.spares_resolveFrom _ _

/-- Resolving a path text from a root is not about test files. -/
lemma Disk.spares_resolveFrom (root text : String) : Spares (disk.resolveFrom root text) :=
  disk.spares_resolve _

/-- Showing a path is not about test files. -/
lemma Disk.spares_relativeTo (root text : String) : Spares (disk.relativeTo root text) :=
  (disk.spares_resolve root).bind fun _ => (disk.spares_resolve text).bind fun _ => .ok _

/-- Reading a module is not about test files. -/
lemma Disk.spares_read (text : String) : Spares (disk.read text) := by
  rw [read]
  split
  · exact .ok _
  · exact .error (by simp)

/-- Choosing a grammar is not about test files. -/
lemma Grammar.spares_ofPath (path : String) : Spares (Grammar.ofPath path) := by
  rw [ofPath]
  split
  · exact .ok _
  · exact .error (by simp)

end Settings

namespace Discovery

variable {tree : FileTree} {query : Query}

/-- The walk only ends early because a name cannot be compared with the endings. -/
lemma spares_of_mem_eventsOf {directory : Path} {names : List String} {fault : Fault}
    (mem : .fault fault ∈ eventsOf (names.map (inspect tree query directory))) :
    Spares (.error fault : Except Fault Unit) := by
  have spares {name : String} (failed : hasSuffix name query.suffixes = .error fault) :
      Spares (.error fault : Except Fault Unit) := by
    intro testFile cause same
    cases same
    exact Listing.spares_any _ _ testFile cause failed
  induction names with
  | nil => cases mem
  | cons name rest ih =>
    rw [List.map_cons] at mem
    cases found : inspect tree query directory name with
    | descend _ =>
      rw [found] at mem
      exact ih mem
    | nothing =>
      rw [found] at mem
      exact ih mem
    | event event =>
      rw [found] at mem
      cases event with
      | found _ => exact ih (by simpa [eventsOf] using mem)
      | notice _ => exact ih (by simpa [eventsOf] using mem)
      | fault fault' =>
        obtain rfl : fault = fault' := by simpa [eventsOf] using mem
        -- Of all that is done with an entry only the comparison with the endings can fail.
        rw [inspect] at found
        split at found
        · split at found <;> cases found
        · split at found
          next failed => cases found; exact spares failed
          next => cases found
        · cases found
        · split at found
          next failed => cases found; exact spares failed
          next => cases found
          next => cases found

/-- A walk ends early with no fault about a test file. -/
lemma spares_of_mem_walk {visited queue : List Path} {fault : Fault}
    (mem : .fault fault ∈ walk tree query visited queue) :
    Spares (.error fault : Except Fault Unit) := by
  fun_induction walk tree query visited queue with
  | case1 => cases mem
  | case2 visited directory queue text error lost ih => exact ih (by simpa using mem)
  | case3 visited directory queue text place located old ih => exact ih (by simpa using mem)
  | case4 visited directory queue place located new isDirectory findings events ends =>
    exact spares_of_mem_eventsOf mem
  | case5 visited directory queue place located new isDirectory findings events ends ih =>
    obtain here | later := List.mem_append.mp mem
    · exact spares_of_mem_eventsOf here
    · exact ih later
  | case6 visited directory queue text place located new isFile ih => exact ih (by simpa using mem)

/-- The search for test files does not fail because of one that cannot be read. -/
lemma spares_testFiles (disk : Disk) (root : String) (query : Query) :
    Spares (testFiles disk root query).1 := by
  rw [testFiles]
  cases ended : faultOf (walk disk.tree query [] [Path.ofText disk.cwd root]) with
  | none => exact .ok _
  | some fault =>
    obtain ⟨event, mem, same⟩ := List.exists_of_findSome?_eq_some ended
    cases event with
    | fault fault' =>
      cases same
      intro testFile cause same
      exact spares_of_mem_walk mem testFile cause (by cases same; rfl)
    | _ => cases same

end Discovery

namespace Node

/-- Collecting the exports of a statement is not about test files. -/
lemma spares_exportsOfStatement (statement : Node) (symbols : SymbolTable) :
    Spares (statement.exportsOfStatement symbols) := by
  intro testFile cause failed
  cases (exportsOfStatement_eq_error_iff.mp failed).1

end Node

namespace Run

variable {run : Run} {disk : Disk}

/-- Listing the test files does not fail because of one that cannot be read. -/
lemma spares_diskFiles : Spares (run.diskFiles disk) := by
  have query : Spares run.query :=
    (Config.spares_get _).bind fun suffixes => Config.spares_exclusions.bind fun exclusions =>
      (Listing.spares_ofValue suffixes).bind fun _ => .ok _
  exact query.bind fun query => (Discovery.spares_testFiles disk run.root query).bind fun _ => .ok _

/-- Spelling a module in a test file does not read that file. -/
lemma spares_target (testFile moduleFile : String) :
    Spares (run.target disk testFile moduleFile) := by
  have relative : Spares (Specifier.relativePath disk.cwd testFile moduleFile) := by
    rw [Specifier.relativePath]
    split
    · exact .error (by simp)
    · exact .ok _
  exact relative.bind fun path => Config.spares_specifierOf path

/-- Searching imports that were read is not about test files. -/
lemma spares_importsName (index : Json) (target name : String) (facts : List ImportFact) :
    Spares (importsName index target name facts) := by
  induction facts with
  | nil => exact .ok false
  | cons fact rest ih =>
    refine (Config.spares_sameModule index _ _).bind fun same => ?_
    split
    · exact .ok true
    · exact ih

/-- Naming a language is not about test files. -/
lemma spares_localeOf (value : Json) : Spares (localeOf value) := by
  rw [localeOf]
  split
  · exact .ok _
  · exact .illTyped

/-- Warning about exports is not about test files. -/
lemma spares_uncheckedExports (file : String) (locale : Json) (unchecked : List UncheckedExport) :
    Spares (run.uncheckedExports file locale unchecked) := by
  refine (Config.spares_isOn _).bind fun warns => ?_
  split
  · exact .mapM (fun exported => (spares_localeOf locale).bind fun _ => .ok _) unchecked
  · exact .ok []

/-- Collecting the exports of a program is not about test files. -/
lemma spares_exportsOf (program : Node) : Spares (run.exportsOf program) := by
  have marker (value : Json) (hasComment : Bool) : Spares (markerFor value hasComment) := by
    rw [markerFor.eq_def]
    split
    · exact .ok _
    · split
      · exact .illTyped
      · exact .ok _
  refine (Config.spares_get _).bind fun value => (marker _ _).bind fun text => ?_
  refine Spares.foldlM (fun found placed => ?_) _ _
  exact (placed.2.spares_exportsOfStatement _).bind fun _ => .ok _

end Run

namespace Reading

variable {reading : Reading} {run : Run} {disk : Disk} (files : Spares reading.files)
  (imports : ∀ file, Spares (reading.imports file))

include imports in
/-- The search through test files spares them if reading each of them does. -/
lemma spares_coveringFile {index : Json} {name moduleFile : String} (testFiles : List String) :
    Spares (reading.coveringFile run disk index name moduleFile testFiles) := by
  induction testFiles with
  | nil => exact .ok none
  | cons testFile rest ih =>
    refine (Run.spares_target _ _).bind fun target => (imports testFile).bind fun facts => ?_
    refine (Run.spares_importsName _ _ _ _).bind fun found => ?_
    split
    · exact .ok _
    · exact ih

include files imports

/-- A lookup spares test files if the search for them and reading each of them does. -/
lemma spares_isCovered (name moduleFile : String) :
    Spares (reading.isCovered run disk name moduleFile) := by
  refine (disk.spares_resolveFrom _ _).bind fun place => (Config.spares_get _).bind fun index => ?_
  exact files.bind fun testFiles => (spares_coveringFile imports testFiles).bind fun _ => .ok _

/-- A report on functions spares test files if the lookups do. -/
lemma spares_missingTests {moduleFile file : String} {locale : Json}
    (functions : List ExportedFunction) :
    Spares (reading.missingTests run disk moduleFile file locale functions) := by
  induction functions with
  | nil => exact .ok []
  | cons function rest ih =>
    refine (spares_isCovered files imports _ _).bind fun covered => ?_
    split
    · exact ih
    · exact (Run.spares_localeOf locale).bind fun language => ih.bind fun others => .ok _

/-- A report on exports spares test files if the lookups do. -/
lemma spares_diagnose (exports : Exports) (moduleFile : String) :
    Spares (reading.diagnose run disk exports moduleFile) := by
  refine (disk.spares_relativeTo _ _).bind fun shown => (Config.spares_get _).bind fun locale => ?_
  refine (spares_missingTests files imports _).bind fun missing => ?_
  exact (Run.spares_uncheckedExports _ _ _).bind fun _ => .ok _

end Reading

end ExportCover
