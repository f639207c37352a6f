import ExportCover.Proofs.Command.Refinement
import ExportCover.Proofs.Config.Table
import ExportCover.Proofs.Run.Presentation

/-!
# Checks that are presented in different ways

A check in a run selects its modules, checks them and prints a sorted report. The language and the
switch for unchecked exports do not bear on what is selected, on the exit code or on the errors of
the sorted report (`check_rephrased`).
-/

namespace ExportCover

open Diagnostic (errors)

namespace Reading

variable {reading : Reading} {run run' : Run} {disk : Disk}

/-- Checks of several modules are alike in two runs that differ in how they put things. -/
lemma checkAll_alike (rephrases : Run.Rephrases run run') (modules : List String) :
    Alike (reading.checkAll run disk modules) (reading.checkAll run' disk modules) := by
  induction modules with
  | nil => exact .refl _
  | cons file rest ih => exact (checkModule_alike rephrases none).append ih

end Reading

namespace Command

variable {setting : Setting} {arguments : List String} {run run' : Run} {disk : Disk}
  {isVerbose isVerbose' asJson asJson' : Bool} {paths modules : List String}

/-- A command line that asks for a check carries it out in its run. -/
lemma Asks.output_eq_checkIn (asks : Asks setting arguments run isVerbose paths asJson) :
    (Command.run setting arguments).output = checkIn setting run isVerbose paths asJson := by
  obtain ⟨root, created, output⟩ := asks.exists_output
  rw [output, check_eq_checkIn asks.hasParser created]

/-- A check that cannot select its modules fails like that. -/
lemma checkIn_eq_error {fault : Fault}
    (failed : modulesToCheck run setting.disk paths = .error fault) :
    checkIn setting run isVerbose paths asJson = .error fault := by
  have prepared : ((prepare run setting.disk paths).runWith .empty).1 = .error fault := by
    rw [prepare, failed]
    rfl
  rw [checkIn]
  generalize (prepare run setting.disk paths).runWith .empty = result at prepared
  obtain ⟨_, first⟩ := result
  cases prepared
  rfl

/-- The exit code depends on whether there are errors. -/
lemma exitCode_eq (diagnostics : List Diagnostic) :
    exitCode diagnostics = if errors diagnostics = [] then 0 else 1 := by
  rw [exitCode, errors]
  cases found : diagnostics.any Diagnostic.isError with
  | true =>
    obtain ⟨diagnostic, mem, isError⟩ := List.any_eq_true.mp found
    rw [if_pos rfl, if_neg]
    rw [List.map_eq_nil_iff, List.filter_eq_nil_iff]
    exact fun none => none diagnostic mem isError
  | false =>
    rw [if_neg Bool.false_ne_true, if_pos]
    rw [List.map_eq_nil_iff, List.filter_eq_nil_iff]
    exact fun diagnostic mem => Bool.not_eq_true _ ▸ List.any_eq_false.mp found diagnostic mem

/-- The exit code of a check depends on the errors that were found, or on the fault. -/
lemma exit_conclude_congr {terminal : Terminal} {before before' : List String}
    {outcome outcome' : Except Fault (List Diagnostic)} (alike : Alike outcome outcome') :
    Output.exit <$> conclude terminal asJson before outcome
      = Output.exit <$> conclude terminal asJson' before' outcome' := by
  obtain ⟨fault, rfl, rfl⟩ | ⟨report, report', rfl, rfl, same⟩ := alike.cases
  · rw [conclude, conclude]
    split
    · rfl
    · rfl
  · have sorted : errors (Diagnostic.sort report) = errors (Diagnostic.sort report') := by
      rw [Diagnostic.errors_sort, Diagnostic.errors_sort, same]
    obtain ⟨out, printed⟩ := exists_printed terminal asJson (Diagnostic.sort report)
    obtain ⟨out', printed'⟩ := exists_printed terminal asJson' (Diagnostic.sort report')
    rw [conclude, conclude, printed, printed']
    simp only [Outcome.ok_bind, exitCode_eq, sorted]
    rfl

/-- How things are put has no part in the selection of modules. -/
lemma modulesToCheck_congr (agree : Run.AgreeOn Run.judging run run') :
    modulesToCheck run disk paths = modulesToCheck run' disk paths := by
  have extensions := agree.get (show "extensions" ∈ Run.judging by decide)
  have shouldCheck : run.shouldCheck disk = run'.shouldCheck disk :=
    funext fun file => agree.shouldCheck
  rw [modulesToCheck, modulesToCheck, selectFiles, selectFiles, agree.root, agree.exclusions,
    extensions, shouldCheck]

/-- Two runs that present their reports in different ways. A check selects the same modules in both
and ends with the same exit code or fault. Where it concludes, the two sorted reports have the same
errors in the same order, up to their messages. The same holds of a check of a single module and of
one export statement, whatever was asked before. -/
theorem check_rephrased (setting : Setting) {run run' : Run}
    (rephrases : Run.Rephrases run run') :
    (∀ paths, modulesToCheck run setting.disk paths = modulesToCheck run' setting.disk paths) ∧
    (∀ isVerbose isVerbose' asJson asJson' paths,
      Output.exit <$> checkIn setting run isVerbose paths asJson
        = Output.exit <$> checkIn setting run' isVerbose' paths asJson') ∧
    (∀ isVerbose isVerbose' asJson asJson' paths modules,
      modulesToCheck run setting.disk paths = .ok modules →
      ∃ before before' outcome outcome',
        checkIn setting run isVerbose paths asJson
          = conclude setting.terminal asJson before outcome ∧
        checkIn setting run' isVerbose' paths asJson'
          = conclude setting.terminal asJson' before' outcome' ∧
        (errors <| Diagnostic.sort ·) <$> outcome = (errors <| Diagnostic.sort ·) <$> outcome') ∧
    (∀ arguments isVerbose paths asJson, Asks setting arguments run isVerbose paths asJson →
      (Command.run setting arguments).output = checkIn setting run isVerbose paths asJson) ∧
    ∀ past past' moduleFile,
      (∀ source?, errors <$> ((run.checkModule setting.disk moduleFile source?).runWith
            (run.learned setting.disk past)).1
          = errors <$> ((run'.checkModule setting.disk moduleFile source?).runWith
            (run'.learned setting.disk past')).1) ∧
      ∀ symbols preceding statement,
        errors <$> ((run.checkExport setting.disk moduleFile symbols preceding statement).runWith
            (run.learned setting.disk past)).1
          = errors <$> ((run'.checkExport setting.disk moduleFile symbols preceding
            statement).runWith (run'.learned setting.disk past')).1 := by
  have agree : Run.AgreeOn Run.judging run run' := rephrases.agreeOn (by decide) (by decide)
  -- Both checks come to the same modules, and their reports on these are alike.
  have concludes (isVerbose isVerbose' asJson asJson' : Bool) (paths modules : List String)
      (selected : modulesToCheck run setting.disk paths = .ok modules) :
      ∃ before before' outcome outcome', Alike outcome outcome' ∧
        checkIn setting run isVerbose paths asJson
          = conclude setting.terminal asJson before outcome ∧
        checkIn setting run' isVerbose' paths asJson'
          = conclude setting.terminal asJson' before' outcome' := by
    have selected' := (modulesToCheck_congr agree).symm.trans selected
    obtain ⟨_, _, _, concluded⟩ := checkIn_eq rephrases.typed selected
    obtain ⟨_, _, _, concluded'⟩ := checkIn_eq rephrases.typed' selected'
    have same : run'.reading setting.disk .empty = run.reading setting.disk .empty :=
      rephrases.reading [] []
    exact ⟨_, _, _, _, Reading.checkAll_alike rephrases modules, concluded, same ▸ concluded'⟩
  refine ⟨fun paths => modulesToCheck_congr agree, ?_, ?_,
    fun _ _ _ _ asks => asks.output_eq_checkIn,
    fun past past' moduleFile => Run.errors_rephrased setting.disk past past' moduleFile rephrases⟩
  · intro isVerbose isVerbose' asJson asJson' paths
    cases selected : modulesToCheck run setting.disk paths with
    | error fault =>
      rw [checkIn_eq_error selected,
        checkIn_eq_error ((modulesToCheck_congr agree).symm.trans selected)]
    | ok modules =>
      obtain ⟨_, _, _, _, alike, concluded, concluded'⟩ :=
        concludes isVerbose isVerbose' asJson asJson' paths modules selected
      rw [concluded, concluded']
      exact exit_conclude_congr alike
  · intro isVerbose isVerbose' asJson asJson' paths modules selected
    obtain ⟨before, before', outcome, outcome', alike, concluded, concluded'⟩ :=
      concludes isVerbose isVerbose' asJson asJson' paths modules selected
    exact ⟨before, before', outcome, outcome', concluded, concluded', alike.sorted⟩

/-- A run that reports in Japanese and warns about exports which are not checked. -/
def japaneseRun : Run :=
  ⟨"/", (Config.default.set "locale" (.string "ja")).set "report_unchecked_exports" (.bool true)⟩

/-- The run in Japanese differs from the plain one in how it puts things. -/
lemma rephrases_japanese : Run.Rephrases rootRun japaneseRun := by
  refine ⟨rfl, fun key noLocale noSwitch => ?_, by decide +kernel, by decide +kernel⟩
  rw [japaneseRun, Config.get?_set, if_neg (Ne.symm noSwitch), Config.get?_set,
    if_neg (Ne.symm noLocale)]
  rfl

/-- In the pair of modules the same modules are selected in Japanese, with the same exit code. -/
theorem check_rephrased_pair :
    modulesToCheck japaneseRun pairDisk ["b.ts", "a.ts", "./b.ts"] = .ok ["/a.ts", "/b.ts"] ∧
      Output.exit <$> checkIn (plainly pairDisk) japaneseRun true ["b.ts", "a.ts", "./b.ts"] false
        = .ok 1 := by
  obtain ⟨selects, exits, _, prints, _⟩ := check_rephrased (plainly pairDisk) rephrases_japanese
  obtain ⟨_, _, _, _, _, output⟩ := asks_pair.output_of_reports selected_pair
    fun file mem => ask_eq_ok.mp (ask_pair file mem)
  refine ⟨(selects _).symm.trans selected_pair, ?_⟩
  rw [← exits false true true false, ← prints _ _ _ _ asks_pair, output, exitCode_sort,
    if_pos ⟨pairError, by simp, rfl⟩]
  rfl

end Command

end ExportCover
