import ExportCover.Proofs.Config.Table
import ExportCover.Proofs.Config.Typed
import ExportCover.Proofs.FileTree.Settled
import ExportCover.Proofs.Path.Glob
import ExportCover.Proofs.Run.Work
import ExportCover.Run.Check

/-!
# The gate before a check

A check of a module asks whether the place that the module leads to is checked, and leaves it alone
if not. Whether the module itself is checked, as it is spelled, is another question: its name may be
an alias, and a relative spelling is followed from the working directory instead of the root. The
two questions have the same answer under every well-typed configuration exactly for the modules that
have the name of their place and are shown as it is (`gate_agrees_iff`).
-/

namespace ExportCover

/-- Texts that end with each other are equal. -/
lemma Text.eq_of_endsWith {a b : String} (ends : endsWith a b) (ends' : endsWith b a) : a = b := by
  rw [endsWith, List.isSuffixOf_iff_suffix] at ends ends'
  exact String.toList_inj.mp (ends'.eq_of_length_le ends.length_le)

namespace Config

/-- The default configuration with other endings of test file names and other ignore patterns. -/
def withLists (suffixes patterns : List String) : Config :=
  (Config.default.set "test_suffixes" (.texts suffixes)).set "ignore" (.texts patterns)

/-- A list of texts has the type of a list. -/
lemma admits_texts (texts : List String) : SettingType.admits .list (.texts texts) = true := by
  simp [SettingType.admits, Json.texts, Json.text?]

/-- The default configuration stays well typed with other lists. -/
lemma wellTyped_withLists (suffixes patterns : List String) :
    (withLists suffixes patterns).WellTyped := by
  have lists : ∀ setting ∈ schema, "test_suffixes" = setting.key ∨ "ignore" = setting.key →
      setting.type = .list := by decide
  have typed : Config.default.WellTyped := by decide
  intro setting mem
  rw [withLists, get?_set, get?_set]
  split
  next ignored =>
    rw [lists setting mem (.inr ignored)]
    exact admits_texts patterns
  next =>
    split
    next suffixed =>
      rw [lists setting mem (.inl suffixed)]
      exact admits_texts suffixes
    next => exact typed setting mem

/-- The lists that were set are the ones that are read. -/
lemma textsOf_withLists (suffixes patterns : List String) :
    (withLists suffixes patterns).textsOf "test_suffixes" = suffixes ∧
      (withLists suffixes patterns).textsOf "ignore" = patterns := by
  rw [textsOf, textsOf, withLists, get?_set, get?_set, get?_set, if_neg (by decide), if_pos rfl,
    if_pos rfl]
  exact ⟨filterMap_text suffixes, filterMap_text patterns⟩

end Config

namespace Run

variable {run : Run} {disk : Disk} {moduleFile : String}

/-- Under a well-typed configuration a module is taken or left by its name, and then by the path
under which it is shown. -/
lemma shouldCheck_eq (typed : run.config.WellTyped) : run.shouldCheck disk moduleFile
    = if (run.config.textsOf "test_suffixes").any (Text.endsWith (Path.baseName moduleFile)) then
        .ok false
      else do
        let shown ← disk.relativeTo run.root moduleFile
        return !(run.config.textsOf "ignore").any fun pattern => Glob.admits pattern shown := by
  have listing {key : String} (known : (Config.setting? key).map (·.type) = some .list) :
      run.config.listing key = .ok (.ofTexts (run.config.textsOf key)) := by
    rw [Config.listing, typed.get_texts known, Outcome.ok_bind, Listing.ofValue_texts]
  rw [shouldCheck, listing rfl, Outcome.ok_bind, Discovery.isTestFile, Discovery.hasSuffix,
    Listing.any_ofTexts, Outcome.ok_bind]
  split
  · rfl
  · have ignored : run.config.listing "ignore" = .ok (.ofTexts (run.config.textsOf "ignore")) :=
      listing rfl
    simp only [ignored, Outcome.ok_bind, Listing.any_ofTexts]

/-- The question that a check of a module asks: whether the place that it leads to from the root of
the run is checked. -/
def gate (run : Run) (disk : Disk) (moduleFile : String) : Except Fault Bool := do
  run.shouldCheck disk (Path.render (← disk.resolveFrom run.root moduleFile))

/-- What a check does with a module that passed: it finds the grammar, reads the text unless it is
given, and reports on the exports of its tree. -/
def checkPassed (run : Run) (disk : Disk) (place : String) (source? : Option Bytes) :
    Work (List Diagnostic) := do
  let grammar ← Grammar.ofPath place
  let source ← match source? with
    | some source => pure source
    | none => disk.read place
  let diagnostics ← run.checkTree disk place (Program.parse grammar source).root
  Work.note (.debug coverageOrigin
    (place ++ ": " ++ toString diagnostics.length ++ " diagnostic(s)"))
  return diagnostics

/-- A check follows the module from the root and asks at the gate. -/
lemma checkModule_eq (source? : Option Bytes) : run.checkModule disk moduleFile source? = (do
    let place ← disk.resolveFrom run.root moduleFile
    let isChecked ← run.shouldCheck disk (Path.render place)
    if isChecked then run.checkPassed disk (Path.render place) source? else return []) := by
  rw [checkModule]
  refine congrArg _ (funext fun place => ?_)
  refine congrArg (_ >>= ·) (funext fun isChecked => ?_)
  cases isChecked <;> rfl

/-- A check does what it finds at its gate. -/
lemma runWith_checkModule {isChecked : Bool} (found : run.gate disk moduleFile = .ok isChecked) :
    ∃ place, disk.resolveFrom run.root moduleFile = .ok place ∧ ∀ source? memo,
      (run.checkModule disk moduleFile source?).runWith memo
        = (if isChecked then run.checkPassed disk (Path.render place) source?
            else return []).runWith memo := by
  obtain ⟨place, resolved, found⟩ := Outcome.bind_eq_ok.mp found
  refine ⟨place, resolved, fun source? memo => ?_⟩
  change Work.exec _ ⟨memo, []⟩ = Work.exec _ ⟨memo, []⟩
  rw [checkModule_eq, resolved, Work.exec_bind, Work.exec_lift]
  dsimp only
  rw [found, Work.exec_bind, Work.exec_lift]

/-- Whether a module is checked, as it is spelled, is what a check of it finds at its gate: a module
that is not checked gives no diagnostics, whatever its text, and nothing is learned or noticed; a
module that is checked is read for its exports. -/
structure GateAgrees (run : Run) (disk : Disk) (moduleFile : String) : Prop where
  verdict : run.shouldCheck disk moduleFile = run.gate disk moduleFile
  spared : run.shouldCheck disk moduleFile = .ok false → ∀ source? memo,
    (run.checkModule disk moduleFile source?).runWith memo = (.ok [], ⟨memo, []⟩)
  read : run.shouldCheck disk moduleFile = .ok true → ∃ place,
    disk.resolveFrom run.root moduleFile = .ok place ∧ ∀ source? memo,
      (run.checkModule disk moduleFile source?).runWith memo
        = (run.checkPassed disk (Path.render place) source?).runWith memo

/-- The gate agrees where the question has the same answer for the module and for its place. -/
lemma gateAgrees_of_verdict (verdict : run.shouldCheck disk moduleFile = run.gate disk moduleFile) :
    run.GateAgrees disk moduleFile where
  verdict := verdict
  spared left source? memo := by
    obtain ⟨place, -, follows⟩ := runWith_checkModule (verdict.symm.trans left)
    exact follows source? memo
  read taken := by
    obtain ⟨place, resolved, follows⟩ := runWith_checkModule (verdict.symm.trans taken)
    refine ⟨place, resolved, fun source? memo => ?_⟩
    rw [follows source? memo, if_pos rfl]

/-- The module has the name of the place that it leads to from the root, and is shown as it. -/
structure IsOwnSpelling (disk : Disk) (root moduleFile : String) (place : Path) : Prop where
  resolved : disk.resolveFrom root moduleFile = .ok place
  named : Path.baseName moduleFile = Path.baseName (Path.render place)
  shown : disk.relativeTo root moduleFile = disk.relativeTo root (Path.render place)

/-- For a module under its own name the question has the same answer as for its place. -/
lemma IsOwnSpelling.verdict {place : Path} (typed : run.config.WellTyped)
    (own : IsOwnSpelling disk run.root moduleFile place) :
    run.shouldCheck disk moduleFile = run.gate disk moduleFile := by
  rw [gate, own.resolved, Outcome.ok_bind, shouldCheck_eq typed, shouldCheck_eq typed, own.named,
    own.shown]

section Converse

variable {root file other : String} {place : Path}

/-- A file is taken unless it has one of the endings or a pattern admits what is shown. -/
lemma shouldCheck_withLists (suffixes patterns : List String) :
    shouldCheck ⟨root, .withLists suffixes patterns⟩ disk file
      = if suffixes.any (Text.endsWith (Path.baseName file)) then .ok false
        else do
          let shown ← disk.relativeTo root file
          return !patterns.any fun pattern => Glob.admits pattern shown := by
  obtain ⟨hasSuffixes, hasPatterns⟩ := Config.textsOf_withLists suffixes patterns
  rw [shouldCheck_eq (Config.wellTyped_withLists suffixes patterns), hasSuffixes, hasPatterns]

/-- Without ignore patterns a file is only left alone for its name. -/
lemma endsWith_of_left (left : shouldCheck ⟨root, .withLists [other] []⟩ disk file = .ok false) :
    Text.endsWith (Path.baseName file) other := by
  rw [shouldCheck_withLists] at left
  split at left
  next ends => simpa using ends
  next =>
    obtain ⟨shown, -, taken⟩ := Outcome.bind_eq_ok.mp left
    cases taken

/-- A file is left alone if its own name is an ending. -/
lemma left_of_baseName :
    shouldCheck ⟨root, .withLists [Path.baseName file] []⟩ disk file = .ok false := by
  have ends : Text.endsWith (Path.baseName file) (Path.baseName file) :=
    Text.endsWith_iff.mpr ⟨"", (String.empty_append).symm⟩
  rw [shouldCheck_withLists, if_pos (by simpa using ends)]

/-- Files that are taken or left alike under all endings and patterns have the same name and are
shown alike. -/
lemma eq_of_alike (alike : ∀ suffixes patterns,
      shouldCheck ⟨root, .withLists suffixes patterns⟩ disk file
        = shouldCheck ⟨root, .withLists suffixes patterns⟩ disk other) :
    Path.baseName file = Path.baseName other ∧
      disk.relativeTo root file = disk.relativeTo root other := by
  refine ⟨Text.eq_of_endsWith ?_ ?_, ?_⟩
  · exact endsWith_of_left ((alike _ _).trans left_of_baseName)
  · exact endsWith_of_left ((alike _ _).symm.trans left_of_baseName)
  cases shown : disk.relativeTo root file with
  | error fault =>
    have same := alike [] []
    simp only [shouldCheck_withLists, shown, List.any_nil, Bool.false_eq_true, if_false,
      Outcome.error_bind] at same
    obtain failed | ⟨_, _, taken⟩ := Outcome.bind_eq_error.mp same.symm
    · exact failed.symm
    · cases taken
  | ok text =>
    -- The pattern that stands for this text alone leaves the first file, and so it does the second.
    have same := alike [] [Glob.exactly text]
    have admitted : Glob.admits (Glob.exactly text) text = true := Glob.admits_exactly.mpr rfl
    simp only [shouldCheck_withLists, shown, List.any_nil, List.any_cons, Bool.false_eq_true,
      if_false, Outcome.ok_bind, admitted, Bool.or_false, Bool.not_true] at same
    obtain ⟨text', shown', left⟩ := Outcome.bind_eq_ok.mp same.symm
    have admitted' : Glob.admits (Glob.exactly text) text' = true := by simpa using left
    rw [shown', Glob.admits_exactly.mp admitted']

end Converse

/-- Whether a module is checked agrees with a check of it under every well-typed configuration
exactly if the module has the name of the place that it leads to and is shown as that place. This
holds of a module with the name of its place if the way to the place is written to its end and is
the same from the working directory as from the root, as it is if the module is spelled from `/`. -/
theorem gate_agrees_iff (disk : Disk) (root moduleFile : String) :
    ((∀ config : Config, config.WellTyped → GateAgrees ⟨root, config⟩ disk moduleFile) ↔
      ∃ place, IsOwnSpelling disk root moduleFile place) ∧
    ∀ place, disk.tree.Settled disk.cwd →
      disk.tree.IsWritten (disk.startOf moduleFile) (Path.names moduleFile) →
      disk.resolve moduleFile = .ok place → disk.resolveFrom root moduleFile = .ok place →
      Path.baseName moduleFile = Path.baseName (Path.render place) →
      ∀ config : Config, config.WellTyped → GateAgrees ⟨root, config⟩ disk moduleFile := by
  refine ⟨⟨fun agrees => ?_, ?_⟩, ?_⟩
  · have verdict (suffixes patterns : List String) :=
      (agrees _ (Config.wellTyped_withLists suffixes patterns)).verdict
    have left : gate ⟨root, .withLists [Path.baseName moduleFile] []⟩ disk moduleFile = .ok false :=
      (verdict _ _).symm.trans left_of_baseName
    obtain ⟨place, resolved, -⟩ := Outcome.bind_eq_ok.mp left
    obtain ⟨named, shown⟩ := eq_of_alike fun suffixes patterns =>
      (verdict suffixes patterns).trans (by rw [gate, resolved, Outcome.ok_bind])
    exact ⟨place, resolved, named, shown⟩
  · rintro ⟨place, own⟩ config typed
    exact gateAgrees_of_verdict (own.verdict typed)
  · intro place home written direct resolved named config typed
    have again := disk.resolve_settled home written direct
    have own : IsOwnSpelling disk root moduleFile place :=
      ⟨resolved, named, by rw [Disk.relativeTo, Disk.relativeTo, direct, again]⟩
    exact gateAgrees_of_verdict (own.verdict typed)

/-- A project below the working directory, with generated modules and an alias of a test file. -/
def nested : Disk :=
  ⟨⟨[(["p"], .directory), (["p", "sub"], .directory), (["p", "sub", "gen"], .directory),
      (["p", "sub", "gen", "a.ts"], .file []), (["p", "sub", "b.test.ts"], .file []),
      (["p", "sub", "b.ts"], .link "b.test.ts")]⟩, ["p"]⟩

/-- A run in the project that leaves generated modules alone. -/
def nestedRun : Run :=
  ⟨"/p/sub", .withLists [".test.ts"] ["gen/*"]⟩

/-- Spelled from the root of its file tree, the generated module is left alone in either way. -/
theorem gate_agrees_iff_nested : nestedRun.shouldCheck nested "/p/sub/gen/a.ts" = .ok false ∧
    ∀ source? memo, (nestedRun.checkModule nested "/p/sub/gen/a.ts" source?).runWith memo
      = (.ok [], ⟨memo, []⟩) := by
  have left : nestedRun.shouldCheck nested "/p/sub/gen/a.ts" = .ok false := by decide +kernel
  have home : nested.tree.Settled nested.cwd :=
    .of_directory (by decide +kernel) (by decide +kernel)
  have agrees : nestedRun.GateAgrees nested "/p/sub/gen/a.ts" :=
    (gate_agrees_iff nested nestedRun.root "/p/sub/gen/a.ts").2 ["p", "sub", "gen", "a.ts"] home
      (by decide +kernel) (by decide +kernel) (by decide +kernel) (by decide +kernel)
      nestedRun.config (Config.wellTyped_withLists _ _)
  exact ⟨left, agrees.spared left⟩

/-- A module spelled from the root of the run is taken although a check leaves it alone, and so is
an alias of a test file. Under another pattern the module is left alone although a check reads
it. -/
theorem gate_differs : nestedRun.shouldCheck nested "gen/a.ts" = .ok true ∧
    nestedRun.shouldCheck nested "/p/sub/b.ts" = .ok true ∧
    (∀ file ∈ ["gen/a.ts", "/p/sub/b.ts"], nestedRun.gate nested file = .ok false ∧
      ∀ source? memo, (nestedRun.checkModule nested file source?).runWith memo
        = (.ok [], ⟨memo, []⟩)) ∧
    shouldCheck ⟨"/p/sub", .withLists [] ["../*"]⟩ nested "gen/a.ts" = .ok false ∧
    gate ⟨"/p/sub", .withLists [] ["../*"]⟩ nested "gen/a.ts" = .ok true := by
  refine ⟨by decide +kernel, by decide +kernel, fun file mem => ?_, by decide +kernel,
    by decide +kernel⟩
  have closed : nestedRun.gate nested file = .ok false := by
    revert file
    decide +kernel
  obtain ⟨place, -, follows⟩ := runWith_checkModule closed
  exact ⟨closed, follows⟩

end Run

end ExportCover
