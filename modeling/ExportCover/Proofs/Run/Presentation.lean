import ExportCover.Proofs.Report.Sorting
import ExportCover.Proofs.Run.Agreement
import ExportCover.Proofs.Run.Settings

/-!
# What only changes the presentation

The language and the switch for unchecked exports decide how a report reads, not what it finds. Two
runs that differ in these alone give reports with the same errors, up to their messages, or end with
the same fault (`errors_rephrased`). Sorting keeps this: the errors of a sorted report are its
errors, sorted (`Diagnostic.errors_sort`).
-/

namespace ExportCover

section Stability

variable {α : Type} {le : α → α → Bool} (trans : ∀ a b c, le a b → le b c → le a c)
  (total : ∀ a b, le a b || le b a)
include trans total

/-- A choice among the elements of a list commutes with sorting it. -/
lemma filter_mergeSort (p : α → Bool) (l : List α) :
    (l.mergeSort le).filter p = (l.filter p).mergeSort le := by
  refine eq_of_filter_ties_eq total ((List.pairwise_mergeSort trans total l).filter p)
    (List.pairwise_mergeSort trans total _) fun a => ?_
  rw [List.filter_comm, filter_ties_mergeSort trans total, filter_ties_mergeSort trans total,
    List.filter_comm]

end Stability

namespace Diagnostic

/-- The diagnostic without its message. -/
def unworded (diagnostic : Diagnostic) : Diagnostic :=
  { diagnostic with message := "" }

/-- The errors of a report, without their messages. -/
def errors (report : List Diagnostic) : List Diagnostic :=
  (report.filter isError).map unworded

variable {report report' : List Diagnostic}

/-- The errors of two reports stand one after the other. -/
@[simp]
lemma errors_append : errors (report ++ report') = errors report ++ errors report' := by
  rw [errors, List.filter_append, List.map_append]
  rfl

/-- Warnings are no errors. -/
@[simp]
lemma errors_warnings (warns : Bool) (file language : String) (exports : List UncheckedExport) :
    errors (warnings warns file language exports) = [] := by
  rw [errors, List.map_eq_nil_iff, List.filter_eq_nil_iff, warnings]
  intro diagnostic mem
  cases warns with
  | false => cases mem
  | true =>
    obtain ⟨exported, _, rfl⟩ := List.mem_map.mp mem
    exact Bool.false_ne_true

/-- The errors of a sorted report are its errors, sorted: neither warnings nor messages matter. -/
lemma errors_sort (report : List Diagnostic) : errors (sort report) = sort (errors report) := by
  rw [errors, sort, filter_mergeSort order_isLE_trans order_isLE_total, List.map_mergeSort]
  · rfl
  · exact fun _ _ _ _ => rfl

end Diagnostic

open Diagnostic (errors)

/-- Two reports have the same errors up to their messages, or are not there for one reason. -/
def Alike (outcome outcome' : Except Fault (List Diagnostic)) : Prop :=
  errors <$> outcome = errors <$> outcome'

namespace Alike

variable {α : Type} {outcome outcome' others others' : Except Fault (List Diagnostic)}

/-- Every outcome is like itself. -/
lemma refl (outcome : Except Fault (List Diagnostic)) : Alike outcome outcome :=
  rfl

/-- Reports with the same errors are alike. -/
lemma ok {report report' : List Diagnostic} (same : errors report = errors report') :
    Alike (.ok report) (.ok report') :=
  congrArg Except.ok same

/-- Reports that are alike are both there, or both are not. -/
lemma cases (alike : Alike outcome outcome') :
    (∃ fault, outcome = .error fault ∧ outcome' = .error fault) ∨
      ∃ report report', outcome = .ok report ∧ outcome' = .ok report' ∧
        errors report = errors report' := by
  cases outcome with
  | error fault =>
    have failed : errors <$> outcome' = .error fault := Eq.symm alike
    exact .inl ⟨fault, rfl, Outcome.map_eq_error.mp failed⟩
  | ok report =>
    have found : errors <$> outcome' = .ok (errors report) := Eq.symm alike
    obtain ⟨report', rfl, same⟩ := Outcome.map_eq_ok.mp found
    exact .inr ⟨report, report', rfl, rfl, same.symm⟩

/-- What follows the same outcome is alike if each step is. -/
lemma bind (first : Except Fault α) {next next' : α → Except Fault (List Diagnostic)}
    (rest : ∀ a, Alike (next a) (next' a)) : Alike (first >>= next) (first >>= next') := by
  cases first with
  | error fault => rfl
  | ok a => exact rest a

/-- Reports that are put together from parts that are alike are alike. -/
lemma append (first : Alike outcome outcome') (rest : Alike others others') :
    Alike (do return (← outcome) ++ (← others)) (do return (← outcome') ++ (← others')) := by
  obtain ⟨fault, rfl, rfl⟩ | ⟨report, report', rfl, rfl, same⟩ := first.cases
  · rfl
  obtain ⟨fault, rfl, rfl⟩ | ⟨report₂, report₂', rfl, rfl, same₂⟩ := rest.cases
  · rfl
  · refine .ok ?_
    rw [Diagnostic.errors_append, Diagnostic.errors_append, same, same₂]

/-- Reports that are alike are alike once they are sorted. -/
lemma sorted (alike : Alike outcome outcome') :
    (errors <| Diagnostic.sort ·) <$> outcome = (errors <| Diagnostic.sort ·) <$> outcome' := by
  obtain ⟨fault, rfl, rfl⟩ | ⟨report, report', rfl, rfl, same⟩ := alike.cases
  · rfl
  · have both : errors (Diagnostic.sort report) = errors (Diagnostic.sort report') := by
      rw [Diagnostic.errors_sort, Diagnostic.errors_sort, same]
    exact congrArg Except.ok both

end Alike

namespace Run

/-- Two runs with well-typed configurations differ in how they present a report alone. -/
structure Rephrases (run run' : Run) : Prop where
  root : run.root = run'.root
  others : ∀ key, key ≠ "locale" → key ≠ "report_unchecked_exports" →
    run.config.get? key = run'.config.get? key
  typed : run.config.WellTyped
  typed' : run'.config.WellTyped

namespace Rephrases

variable {run run' : Run} {disk : Disk} (rephrases : Rephrases run run')
include rephrases

/-- Runs that differ in how they put things agree on all other keys. -/
lemma agreeOn {keys : List String} (noLocale : "locale" ∉ keys)
    (noSwitch : "report_unchecked_exports" ∉ keys) : AgreeOn keys run run' :=
  ⟨rephrases.root, fun key mem => rephrases.others key (fun same => noLocale (same ▸ mem))
    fun same => noSwitch (same ▸ mem)⟩

/-- The two runs read the same. -/
lemma reading (operations : List Operation) (operations' : List Operation) :
    run'.reading disk (run'.replay (operations'.map (disk, ·)) .empty)
      = run.reading disk (run.replay (operations.map (disk, ·)) .empty) := by
  have agree : AgreeOn judging run run' := rephrases.agreeOn (by decide) (by decide)
  have strictness : AgreeOn ["fail_on_unreadable"] run run' :=
    rephrases.agreeOn (by decide) (by decide)
  rw [reading_replay Memo.wellFormed_empty, reading_replay Memo.wellFormed_empty]
  have imports : run'.diskImports disk = run.diskImports disk := by
    funext file
    simp only [diskImports, excuse, strictness.isOn (List.mem_singleton_self _)]
  exact congrArg₂ Reading.mk agree.diskFiles.symm imports

end Rephrases

end Run

namespace Reading

variable {reading : Reading} {run run' : Run} {disk : Disk} {moduleFile : String}

/-- The functions without a test are reported in every language. -/
lemma missingTests_alike {file : String} (language language' : String)
    (functions : List ExportedFunction) :
    Alike (reading.missingTests run disk moduleFile file (.string language) functions)
      (reading.missingTests run disk moduleFile file (.string language') functions) := by
  induction functions with
  | nil => exact .refl _
  | cons function rest ih =>
    rw [missingTests_cons, missingTests_cons]
    refine .bind _ fun covered => ?_
    cases covered with
    | true => exact (Alike.refl (.ok [])).append ih
    | false =>
      have same : Alike (.ok [Diagnostic.missingTest function file language])
          (.ok [Diagnostic.missingTest function file language']) := .ok rfl
      exact same.append ih

variable (rephrases : Run.Rephrases run run')
include rephrases

/-- The reports on exports are alike. -/
lemma diagnose_alike (exports : Exports) :
    Alike (reading.diagnose run disk exports moduleFile)
      (reading.diagnose run' disk exports moduleFile) := by
  have agree : Run.AgreeOn Run.judging run run' := rephrases.agreeOn (by decide) (by decide)
  cases relative : disk.relativeTo run.root moduleFile with
  | error fault =>
    rw [diagnose, diagnose, ← rephrases.root, relative]
    exact .refl _
  | ok shown =>
    rw [diagnose_eq_bind (Run.reports_of_wellTyped rephrases.typed) relative,
      diagnose_eq_bind (Run.reports_of_wellTyped rephrases.typed') (rephrases.root ▸ relative),
      missingTests_congr (isCovered_congr agree)]
    have warnings : ∀ warns warns' language language', Alike
        (.ok (Diagnostic.warnings warns shown language exports.unchecked))
        (.ok (Diagnostic.warnings warns' shown language' exports.unchecked)) := by
      intro warns warns' language language'
      exact .ok (by rw [Diagnostic.errors_warnings, Diagnostic.errors_warnings])
    exact (missingTests_alike _ _ _).append (warnings _ _ _ _)

/-- The reports about a module are alike. -/
lemma checkModule_alike (source? : Option Bytes) :
    Alike (reading.checkModule run disk moduleFile source?)
      (reading.checkModule run' disk moduleFile source?) := by
  have agree : Run.AgreeOn Run.judging run run' := rephrases.agreeOn (by decide) (by decide)
  simp only [checkModule, checkTree, ← rephrases.root, ← agree.shouldCheck, ← agree.exportsOf]
  refine .bind _ fun place => .bind _ fun isChecked => ?_
  cases isChecked with
  | false => exact .refl (.ok [])
  | true =>
    refine .bind _ fun grammar => .bind _ fun source => .bind _ fun exports => ?_
    exact diagnose_alike rephrases exports

/-- The reports about an export statement are alike. -/
lemma checkExport_alike (symbols : SymbolTable) (preceding : List Node) (statement : Node) :
    Alike (reading.checkExport run disk moduleFile symbols preceding statement)
      (reading.checkExport run' disk moduleFile symbols preceding statement) := by
  have agree : Run.AgreeOn Run.judging run run' := rephrases.agreeOn (by decide) (by decide)
  have marker := agree.get (show "ignore_marker" ∈ Run.judging by decide)
  simp only [checkExport, ← rephrases.root, ← marker]
  refine .bind _ fun place => .bind _ fun value => .bind _ fun text => ?_
  split
  · exact .refl _
  · exact .bind _ fun exports => diagnose_alike rephrases exports

end Reading

namespace Run

/-- What a run has learned from what was asked of it on a disk. -/
def learned (run : Run) (disk : Disk) (past : List Operation) : Memo :=
  run.replay (past.map (disk, ·)) .empty

/-- Two runs that present their reports in different ways, on a disk that does not change and
whatever either was asked before, find the same errors in a module and at an export statement, up
to their messages, or end with the same fault. -/
theorem errors_rephrased {run run' : Run} (disk : Disk) (past past' : List Operation)
    (moduleFile : String) (rephrases : Rephrases run run') :
    (∀ source?,
      errors <$> ((run.checkModule disk moduleFile source?).runWith (run.learned disk past)).1
        = errors <$> ((run'.checkModule disk moduleFile source?).runWith
            (run'.learned disk past')).1) ∧
    ∀ symbols preceding statement,
      errors <$> ((run.checkExport disk moduleFile symbols preceding statement).runWith
          (run.learned disk past)).1
        = errors <$> ((run'.checkExport disk moduleFile symbols preceding statement).runWith
            (run'.learned disk past')).1 := by
  have wf : (run.learned disk past).WellFormed := wellFormed_replay run _
  have wf' : (run'.learned disk past').WellFormed := wellFormed_replay run' _
  have same : run'.reading disk (run'.learned disk past')
      = run.reading disk (run.learned disk past) :=
    rephrases.reading past past'
  refine ⟨fun source? => ?_, fun symbols preceding statement => ?_⟩
  · rw [(gives_checkModule gives_testFiles gives_importFacts).outcome_eq ⟨wf, rfl⟩,
      (gives_checkModule gives_testFiles gives_importFacts).outcome_eq ⟨wf', same⟩]
    exact Reading.checkModule_alike rephrases source?
  · rw [(gives_checkExport gives_testFiles gives_importFacts).outcome_eq ⟨wf, rfl⟩,
      (gives_checkExport gives_testFiles gives_importFacts).outcome_eq ⟨wf', same⟩]
    exact Reading.checkExport_alike rephrases symbols preceding statement

end Run

end ExportCover
