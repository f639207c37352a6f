import ExportCover.Proofs.Exports.Counting
import ExportCover.Proofs.Run.Agreement

/-!
# One error for every function without a test

With test files that can all be read, the report about the exports of a module is never a fault. Its
errors are the exported functions that no test file imports, one for each, and what else it holds
are warnings (`Reading.exists_report`). Together with the count of exported functions this says how
many errors a check reports under each name at each place (`Run.countP_errors`). It takes a module
whose place is one to check and a configuration that says how to report and how to spell
(`Run.checkModule_uncounted`).
-/

namespace ExportCover

namespace Diagnostic

/-- The diagnostic is an error about this name at this place. -/
def isErrorAt (name : String) (line column : Nat) (diagnostic : Diagnostic) : Bool :=
  diagnostic.isError && diagnostic.name == name && diagnostic.line == line
    && diagnostic.column == column

/-- An export that is not checked is no error. -/
lemma isErrorAt_unchecked (exported : UncheckedExport) (file locale name : String)
    (line column : Nat) : (unchecked exported file locale).isErrorAt name line column = false :=
  rfl

/-- No warning is an error. -/
lemma countP_warnings (warns : Bool) (file language : String) (exports : List UncheckedExport)
    (name : String) (line column : Nat) :
    (warnings warns file language exports).countP (·.isErrorAt name line column) = 0 := by
  rw [List.countP_eq_zero]
  intro diagnostic mem
  cases warns with
  | false => cases mem
  | true =>
    obtain ⟨exported, _, rfl⟩ := List.mem_map.mp mem
    simp [isErrorAt_unchecked]

end Diagnostic

namespace Reading

variable {reading : Reading} {run : Run} {disk : Disk} {moduleFile : String}

/-- Among functions with one name all or none are covered. -/
lemma countP_uncovered (covered : String → Bool) (functions : List ExportedFunction) (name : String)
    (line column : Nat) :
    (functions.filter fun function => !covered function.name).countP (·.isAt name line column)
      = if covered name then 0 else functions.countP (·.isAt name line column) := by
  rw [List.countP_filter]
  have named : ∀ {function : ExportedFunction}, function.isAt name line column →
      function.name = name := by
    intro function isAt
    simp only [ExportedFunction.isAt, Bool.and_eq_true, beq_iff_eq] at isAt
    exact isAt.1.1
  -- Coverage is asked for by name, so it is the same for every function counted here.
  cases isCovered : covered name with
  | true =>
    rw [if_pos rfl, List.countP_eq_zero]
    intro function _ both
    obtain ⟨isAt, uncovered⟩ := Bool.and_eq_true_iff.mp both
    rw [named isAt, isCovered] at uncovered
    cases uncovered
  | false =>
    rw [if_neg (by simp)]
    refine List.countP_congr fun function _ => ?_
    constructor
    · exact fun both => (Bool.and_eq_true_iff.mp both).1
    · intro isAt
      rw [isAt, named isAt, isCovered]
      rfl

/-- The errors of a report are the functions that are not covered, one for each. -/
lemma exists_report {language shown : String} {warns : Bool} {covered : String → Bool}
    (reports : run.Reports language warns)
    (relative : disk.relativeTo run.root moduleFile = .ok shown)
    (coverage : ∀ name, reading.isCovered run disk name moduleFile = .ok (covered name))
    (exports : Exports) :
    ∃ diagnostics, reading.diagnose run disk exports moduleFile = .ok diagnostics ∧
      ∀ name line column, diagnostics.countP (·.isErrorAt name line column)
        = if covered name then 0 else exports.functions.countP (·.isAt name line column) := by
  rw [diagnose_eq_bind reports relative, missingTests_eq shown language coverage, Outcome.ok_bind]
  refine ⟨_, rfl, fun name line column => ?_⟩
  rw [List.countP_append, Diagnostic.countP_warnings, Nat.add_zero, List.countP_map]
  exact countP_uncovered covered exports.functions name line column

end Reading

namespace Run

/-- A marker that is configured as a text is the marker of every statement. -/
lemma Marks.eq_of_get {run : Run} {marker text : String} {placed : List Node × Node}
    (marks : run.Marks marker placed)
    (hasMarker : run.config.get "ignore_marker" = .ok (.string text)) : marker = text := by
  rw [Marks, hasMarker] at marks
  exact (Except.ok.inj marks).symm

/-- A check of a module whose place is one to check reports one error for every exported function
that no test file imports and none for the others. The check looks the module up again at the place
where it found it; `home` is where that leads. -/
theorem countP_errors (run : Run) (disk : Disk) (past : List (Disk × Operation))
    {language indexName moduleFile : String} {warns : Bool} {extensions files : List String}
    {place : Path} {facts : String → List ImportFact} {tree : Node} {exports : Exports}
    (reports : run.Reports language warns)
    (hasExtensions : run.config.get "extensions" = .ok (.texts extensions))
    (hasIndex : run.config.get "index_name" = .ok (.string indexName))
    (resolved : disk.resolveFrom run.root moduleFile = .ok place)
    (checked : run.shouldCheck disk (Path.render place) = .ok true)
    (found : run.ask disk (run.replay past .empty) .testFiles = .ok (.files files))
    (read : ∀ testFile ∈ files,
      run.ask disk (run.replay past .empty) (.importFacts testFile) = .ok (.facts (facts testFile)))
    (extracted : run.exportsOf tree = .ok exports) :
    ∃ home marker diagnostics, disk.resolveFrom run.root (Path.render place) = .ok home ∧
      (∀ placed ∈ tree.placedExports, run.Marks marker placed) ∧
      ((run.checkTree disk (Path.render place) tree).runWith (run.replay past .empty)).1
        = .ok diagnostics ∧
      (∀ source? grammar source, Grammar.ofPath (Path.render place) = .ok grammar →
        source?.elim (disk.read (Path.render place)) .ok = .ok source →
        (Program.parse grammar source).root = tree →
        run.ask disk (run.replay past .empty) (.checkModule moduleFile source?)
          = .ok (.diagnostics diagnostics)) ∧
      ∀ name line column,
        (run.Imports disk files facts (Path.render home) name →
          diagnostics.countP (·.isErrorAt name line column) = 0) ∧
        (¬ run.Imports disk files facts (Path.render home) name →
          diagnostics.countP (·.isErrorAt name line column)
            = tree.functionExportsAt marker name line column) := by
  have wf := wellFormed_replay run past
  obtain ⟨shown, relative⟩ := exists_relativeTo checked
  obtain ⟨home, again⟩ := exists_resolveFrom relative
  obtain ⟨marker, collected, marks⟩ := exists_marker extracted
  rw [ask_eq_answer wf] at found
  obtain ⟨files', found, same⟩ := Outcome.map_eq_ok.mp found
  cases same
  -- What the run answers is what its reading holds, and the report is made from the reading.
  have read : ∀ testFile ∈ files,
      (run.reading disk (run.replay past .empty)).imports testFile = .ok (facts testFile) := by
    intro testFile mem
    have read := read testFile mem
    rw [ask_eq_answer wf] at read
    obtain ⟨facts', read, same⟩ := Outcome.map_eq_ok.mp read
    cases same
    exact read
  have rooted := rooted_reading wf found
  obtain ⟨diagnostics, reported, counted⟩ := Reading.exists_report reports relative
    (Reading.isCovered_eq hasExtensions hasIndex again found rooted read) exports
  have reported : (run.reading disk (run.replay past .empty)).checkTree run disk
      (Path.render place) tree = .ok diagnostics := by
    rw [Reading.checkTree, extracted, Outcome.ok_bind, reported]
  refine ⟨home, marker, diagnostics, again, marks, ?_, ?_, fun name line column => ?_⟩
  · rw [(gives_checkTree gives_testFiles gives_importFacts).outcome_eq ⟨wf, rfl⟩, reported]
  · rintro source? grammar source hasGrammar hasSource rfl
    rw [ask_checkModule_eq wf resolved checked hasGrammar hasSource, reported]
    rfl
  · rw [imports_iff_any hasExtensions hasIndex rooted (Path.isAbsolute_render home),
      counted name line column, Node.countP_exports collected]
    exact ⟨fun imported => if_pos imported, fun missing => if_neg missing⟩

/-- A module that exports one function which the sample project covers and lists another one. -/
def sampleSource : Bytes :=
  Text.encode "export function f() {}\nconst g = (() => 1)\nexport { g, g as h }"

/-- The sample project has no test of the listed function: one error for each of its names. -/
theorem countP_errors_sample :
    ∃ diagnostics,
      sampleRun.ask sampleDisk .empty (.checkModule "/lib/index.ts" (some sampleSource))
        = .ok (.diagnostics diagnostics) ∧
      diagnostics.countP (·.isErrorAt "f" 1 1) = 0 ∧
      diagnostics.countP (·.isErrorAt "g" 3 1) = 1 ∧
      diagnostics.countP (·.isErrorAt "h" 3 1) = 1 := by
  have typed : sampleRun.config.WellTyped := by decide
  have hasMarker : sampleRun.config.get "ignore_marker" = .ok (.string "test-ignore") := rfl
  have checked : sampleRun.shouldCheck sampleDisk (Path.render ["lib", "index.ts"])
      = .ok true := by decide +kernel
  have collected : (Program.parse .typescript sampleSource).root.exports "test-ignore"
      = .ok ⟨[⟨"f", .namedFunction, 1, 1⟩, ⟨"g", .reExported, 3, 1⟩, ⟨"h", .reExported, 3, 1⟩],
        []⟩ := by
    decide +kernel
  have statements : (Program.parse .typescript sampleSource).root.placedExports ≠ [] := by
    intro none
    rw [Node.exports, none] at collected
    cases collected
  obtain ⟨home, marker, diagnostics, again, marks, _, reported, counted⟩ :=
    countP_errors sampleRun sampleDisk [] (reports_of_wellTyped typed) (typed.get_texts rfl)
      (typed.get_text rfl) resolveFrom_sample checked testFiles_sample importFacts_sample
      ((exportsOf_eq typed _).trans collected)
  obtain ⟨placed, mem⟩ := List.exists_mem_of_ne_nil _ statements
  obtain rfl := (marks placed mem).eq_of_get hasMarker
  cases resolveFrom_sample.symm.trans again
  have imports_f : ∀ name, sampleRun.Imports sampleDisk ["/test/lib.test.ts"]
      (fun _ => [⟨"../lib", ⟨["f"], none, none⟩⟩]) (Path.render ["lib", "index.ts"]) name
        ↔ name = "f" := by
    intro name
    have covered := Reading.isCovered_eq (typed.get_texts rfl) (typed.get_text rfl)
      resolveFrom_sample files_sample (by decide) imports_sample name
    rw [isCovered_sample] at covered
    rw [imports_iff_any (typed.get_texts rfl) (typed.get_text rfl) (by decide) rfl,
      ← Except.ok.inj covered, decide_eq_true_iff]
  refine ⟨diagnostics, reported _ _ _ rfl rfl rfl, ?_, ?_, ?_⟩
  · exact (counted "f" 1 1).1 ((imports_f "f").mpr rfl)
  · rw [(counted "g" 3 1).2 ((imports_f "g").not.mpr (by decide)),
      ← Node.countP_exports collected]
    decide
  · rw [(counted "h" 3 1).2 ((imports_f "h").not.mpr (by decide)),
      ← Node.countP_exports collected]
    decide

/-- A project with one test file. Beside the project is a link to another test file. -/
def sidelined : Disk :=
  ⟨⟨[(["p"], .directory), (["p", "lib.test.ts"], .file (Text.encode "import { g } from './5'")),
    (["q"], .directory), (["q", "a.ts"], .link "x.test.ts"), (["q", "x.test.ts"], .file [])]⟩, []⟩

/-- A run on the sidelined project. -/
def sidelinedRun (config : Config) : Run := ⟨"/p", config⟩

/-- The default configuration without a key. -/
def defaultWithout (key : String) : Config := Config.default.filter fun entry => entry.1 != key

/-- The default configuration with a number for the index name. -/
def numberedDefault : Config := Config.default.set "index_name" (.int 5)

section Sidelined

variable {config : Config}

/-- The test file of the sidelined project is found under the default endings. -/
lemma files_sidelined (query : (sidelinedRun config).query = .ok Discovery.defaultQuery) :
    ((sidelinedRun config).reading sidelined .empty).files = .ok ["/p/lib.test.ts"] := by
  have names : sidelined.tree.namesIn ["p"] = ["lib.test.ts"] := List.mergeSort_singleton _
  have found : Discovery.Visit.findings sidelined.tree Discovery.defaultQuery ⟨["p"], ["p"]⟩
      = [.event (.found ["p", "lib.test.ts"])] := by
    rw [Discovery.Visit.findings, names]
    rfl
  have start : Path.ofText sidelined.cwd "/p" = ["p"] := rfl
  have listed := diskFiles_flat query found rfl start rfl rfl rfl
  exact listed

/-- The test file of the sidelined project can be read. -/
lemma imports_sidelined :
    ((sidelinedRun config).reading sidelined .empty).imports "/p/lib.test.ts"
      = .ok [⟨"./5", ⟨["g"], none, none⟩⟩] := by
  have parsed : parsedImports sidelined "/p/lib.test.ts"
      = .ok [⟨"./5", ⟨["g"], none, none⟩⟩] := by decide +kernel
  exact diskImports_of_parsed parsed

/-- The module beside the sidelined project is where it is written, and it is shown with the way to
it. -/
lemma module_sidelined :
    Path.render ["q", "m.ts"] = "/q/m.ts" ∧ Grammar.ofPath "/q/m.ts" = .ok .typescript ∧
      sidelined.resolveFrom "/p" "/q/m.ts" = .ok ["q", "m.ts"] ∧
      sidelined.relativeTo "/p" "/q/m.ts" = .ok "../q/m.ts" :=
  ⟨rfl, rfl, rfl, rfl⟩

/-- The module beside the sidelined project is found from the root of the run. -/
lemma resolved_sidelined : sidelined.resolveFrom (sidelinedRun config).root "/q/m.ts"
    = .ok ["q", "m.ts"] :=
  module_sidelined.2.2.1

/-- The module beside the sidelined project is shown from the root of the run. -/
lemma relative_sidelined : sidelined.relativeTo (sidelinedRun config).root "/q/m.ts"
    = .ok "../q/m.ts" :=
  module_sidelined.2.2.2

/-- The mixed text exports a function and a default under the default marker. -/
lemma exports_mixed : mixedTree.exports "test-ignore"
    = .ok ⟨[⟨"f", .namedFunction, 2, 1⟩], [⟨"default", "default export", 1, 1⟩]⟩ :=
  (exportsOf_of_get rfl mixedTree).symm.trans exportsOf_mixed

/-- The run on the sidelined project collects them. -/
lemma exportsOf_sidelined
    (hasMarker : config.get "ignore_marker" = .ok (.string "test-ignore")) :
    (sidelinedRun config).exportsOf mixedTree
      = .ok ⟨[⟨"f", .namedFunction, 2, 1⟩], [⟨"default", "default export", 1, 1⟩]⟩ :=
  (exportsOf_of_get hasMarker _).trans exports_mixed

/-- A check of the mixed text beside the sidelined project reports on its exports. -/
lemma ask_sidelined (hasMarker : config.get "ignore_marker" = .ok (.string "test-ignore"))
    (checked : (sidelinedRun config).shouldCheck sidelined "/q/m.ts" = .ok true) :
    (sidelinedRun config).ask sidelined .empty (.checkModule "/q/m.ts" (some mixedSource))
      = .diagnostics <$> ((sidelinedRun config).reading sidelined .empty).diagnose
          (sidelinedRun config) sidelined
          ⟨[⟨"f", .namedFunction, 2, 1⟩], [⟨"default", "default export", 1, 1⟩]⟩ "/q/m.ts" := by
  obtain ⟨place, isModule, -⟩ := module_sidelined
  rw [ask_checkModule_eq Memo.wellFormed_empty resolved_sidelined (place ▸ checked)
      (place ▸ isModule) rfl, Reading.checkTree, place, ← mixedTree, exportsOf_sidelined hasMarker,
    Outcome.ok_bind]

/-- A lookup of a function fails as the only test file of the sidelined project makes it fail. -/
lemma isCovered_sidelined {fault : Fault} (index : Json)
    (query : (sidelinedRun config).query = .ok Discovery.defaultQuery)
    (hasIndex : config.get "index_name" = .ok index)
    (failed : (do
      let target ← (sidelinedRun config).target sidelined "/p/lib.test.ts" "/q/m.ts"
      importsName index target "f" [⟨"./5", ⟨["g"], none, none⟩⟩]) = .error fault) :
    ((sidelinedRun config).reading sidelined .empty).isCovered (sidelinedRun config) sidelined
      "f" "/q/m.ts" = .error fault := by
  refine Reading.isCovered_eq_error resolved_sidelined hasIndex (files_sidelined query) ?_
  rw [module_sidelined.1, imports_sidelined]
  exact failed

/-- The only test file of the sidelined project imports another name. -/
lemma uncovered_sidelined {extensions : List String} {indexName : String}
    (query : (sidelinedRun config).query = .ok Discovery.defaultQuery)
    (hasExtensions : config.get "extensions" = .ok (.texts extensions))
    (hasIndex : config.get "index_name" = .ok (.string indexName)) :
    ((sidelinedRun config).reading sidelined .empty).isCovered (sidelinedRun config) sidelined
      "f" "/q/m.ts" = .ok false := by
  have read : ∀ testFile ∈ ["/p/lib.test.ts"],
      ((sidelinedRun config).reading sidelined .empty).imports testFile
        = .ok [⟨"./5", ⟨["g"], none, none⟩⟩] := by
    intro testFile mem
    obtain rfl := List.mem_singleton.mp mem
    exact imports_sidelined
  rw [Reading.isCovered_eq hasExtensions hasIndex resolved_sidelined (files_sidelined query)
    (by decide) read]
  simp [ImportFact.brings]

/-- A check of the mixed text ends in an outcome, where the module is one to check, the text exports
the function `f` once, and the only test file of the run imports another name. -/
structure UncoveredEndsIn (config : Config) (moduleFile : String)
    (outcome : Except Fault Answer) : Prop where
  checked : (sidelinedRun config).shouldCheck sidelined moduleFile = .ok true
  found : (sidelinedRun config).ask sidelined .empty .testFiles = .ok (.files ["/p/lib.test.ts"])
  read : (sidelinedRun config).ask sidelined .empty (.importFacts "/p/lib.test.ts")
    = .ok (.facts [⟨"./5", ⟨["g"], none, none⟩⟩])
  extracted : ∃ exports, (sidelinedRun config).exportsOf mixedTree = .ok exports
  hasMarker : (sidelinedRun config).config.get "ignore_marker" = .ok (.string "test-ignore")
  exported : mixedTree.functionExportsAt "test-ignore" "f" 2 1 = 1
  ends : (sidelinedRun config).ask sidelined .empty (.checkModule moduleFile (some mixedSource))
    = outcome

/-- Under the default marker and the default endings of test files it is left to show that the module
is one to check and how the check ends. -/
lemma UncoveredEndsIn.of_ends {moduleFile : String} {outcome : Except Fault Answer}
    (query : (sidelinedRun config).query = .ok Discovery.defaultQuery)
    (hasMarker : config.get "ignore_marker" = .ok (.string "test-ignore"))
    (checked : (sidelinedRun config).shouldCheck sidelined moduleFile = .ok true)
    (ends : (sidelinedRun config).ask sidelined .empty
      (.checkModule moduleFile (some mixedSource)) = outcome) :
    UncoveredEndsIn config moduleFile outcome where
  checked := checked
  found := by
    rw [ask_eq_answer Memo.wellFormed_empty, Reading.answer, files_sidelined query]
    rfl
  read := by
    rw [ask_eq_answer Memo.wellFormed_empty, Reading.answer, imports_sidelined]
    rfl
  extracted := ⟨_, exportsOf_sidelined hasMarker⟩
  hasMarker := hasMarker
  exported := by
    rw [← Node.countP_exports exports_mixed]
    decide
  ends := ends

end Sidelined

/-- No error is reported about a function that no test file imports if the module that is checked is
a link to a test file. The check fails where no language, no extensions or no choice about warnings
are configured, or where the index name is a number that an import ends with. -/
theorem checkModule_uncounted :
    UncoveredEndsIn Config.default "/q/a.ts" (.ok (.diagnostics [])) ∧
      UncoveredEndsIn (defaultWithout "locale") "/q/m.ts" (.error (.missingKey "locale")) ∧
      UncoveredEndsIn (defaultWithout "report_unchecked_exports") "/q/m.ts"
        (.error (.missingKey "report_unchecked_exports")) ∧
      UncoveredEndsIn (defaultWithout "extensions") "/q/m.ts" (.error (.missingKey "extensions")) ∧
      UncoveredEndsIn numberedDefault "/q/m.ts" (.error .illTyped) := by
  refine ⟨?_, ?_, ?_, ?_, ?_⟩
  · -- The link is one to check, but the file behind it is not.
    have behind : sidelined.resolveFrom (sidelinedRun Config.default).root "/q/a.ts"
        = .ok ["q", "x.test.ts"] := by decide +kernel
    have unchecked : (sidelinedRun Config.default).shouldCheck sidelined
        (Path.render ["q", "x.test.ts"]) = .ok false := rfl
    exact .of_ends rfl rfl (by decide +kernel)
      (ask_checkModule_eq_nil Memo.wellFormed_empty behind unchecked _)
  · refine .of_ends rfl rfl rfl ?_
    rw [ask_sidelined rfl rfl, Reading.diagnose_eq_error relative_sidelined (.inl rfl)]
    rfl
  · refine .of_ends rfl rfl rfl ?_
    have hasLocale : (sidelinedRun (defaultWithout "report_unchecked_exports")).config.get "locale"
        = .ok (.string "en") := rfl
    have missing : ((sidelinedRun (defaultWithout "report_unchecked_exports")).reading sidelined
        .empty).isCovered (sidelinedRun (defaultWithout "report_unchecked_exports")) sidelined "f"
          "/q/m.ts" = .ok false := uncovered_sidelined rfl rfl rfl
    -- The function is reported before the choice about warnings is looked up.
    rw [ask_sidelined rfl rfl, Reading.diagnose, relative_sidelined, Outcome.ok_bind, hasLocale,
      Outcome.ok_bind, Reading.missingTests, missing]
    rfl
  · refine .of_ends rfl rfl rfl ?_
    rw [ask_sidelined rfl rfl,
      Reading.diagnose_eq_error relative_sidelined (.inr ⟨⟨.string "en", rfl⟩, ?_⟩)]
    · rfl
    · exact isCovered_sidelined (.string "index") rfl rfl rfl
  · refine .of_ends rfl rfl rfl ?_
    rw [ask_sidelined rfl rfl,
      Reading.diagnose_eq_error relative_sidelined (.inr ⟨⟨.string "en", rfl⟩, ?_⟩)]
    · rfl
    · refine isCovered_sidelined (.int 5) rfl rfl ?_
      obtain ⟨target, spelled⟩ : ∃ target,
          (sidelinedRun numberedDefault).target sidelined "/p/lib.test.ts" "/q/m.ts"
            = .ok target :=
        exists_target sidelined rfl rfl (by decide) (by decide)
      rw [spelled, Outcome.ok_bind, importsName_eq_error _ rfl rfl]

end Run

end ExportCover
