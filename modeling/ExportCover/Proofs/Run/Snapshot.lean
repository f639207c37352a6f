import ExportCover.Proofs.Run.History
import ExportCover.Proofs.Run.Search

/-!
# A run answers from its snapshot

The disk may change at any moment of a run. What a run has answered about its test files, about the
imports of a file or about the coverage of a name it answers again, on whatever disk and after
whatever operations came between, failed ones included (`ask_stable`). The reason is that such an
answer can be recalled from the memo it leaves, and that memos only grow.
-/

namespace ExportCover.Run

open Work

/-- The operations whose answers a run keeps. Coverage is kept as long as the module stays where it
was; a target and a report depend on more than the memo. -/
def Keeps (run : Run) (disk later : Disk) : Operation → Prop
  | .testFiles => True
  | .importFacts _ => True
  | .isCovered _ moduleFile =>
    later.resolveFrom run.root moduleFile = disk.resolveFrom run.root moduleFile
  | _ => False

variable {run : Run} {disk later : Disk} {memo memo' : Memo} {operation : Operation}
  {answer : Answer}

/-- An operation that is kept and answers leaves a memo from which the answer can be recalled. -/
lemma recollection_step (wf : memo.WellFormed) (keeps : run.Keeps disk later operation)
    (answered : run.ask disk memo operation = .ok answer) :
    (run.step memo (disk, operation)).recollection.answer run disk operation = .ok answer := by
  -- Only the operations that are kept matter; each of them answers what it has just learned.
  obtain ⟨trace, performed⟩ : ∃ trace,
      (run.perform disk operation).exec ⟨memo, []⟩ = (.ok answer, trace) :=
    ⟨_, Prod.ext answered rfl⟩
  have left : run.step memo (disk, operation) = trace.memo :=
    congrArg (fun result => result.2.memo) performed
  rw [left]
  cases operation with
  | testFiles =>
    obtain ⟨files, _, found, answered⟩ := exec_bind_eq_ok.mp performed
    cases answered
    have learned := testFiles?_exec_testFiles (congrArg Prod.fst found)
    rw [found] at learned
    rw [Reading.answer, Memo.recollection_files.mpr learned]
    rfl
  | importFacts file =>
    obtain ⟨facts, _, read, answered⟩ := exec_bind_eq_ok.mp performed
    cases answered
    have learned := lookup_exec_importFacts wf (congrArg Prod.fst read)
    rw [read] at learned
    rw [Reading.answer, Memo.recollection_imports.mpr learned]
    rfl
  | isCovered name moduleFile =>
    obtain ⟨covered, _, decided, answered⟩ := exec_bind_eq_ok.mp performed
    cases answered
    rw [Reading.answer, recollection_isCovered wf decided]
    rfl
  | target testFile moduleFile => exact keeps.elim
  | shouldCheck moduleFile => exact keeps.elim
  | checkModule moduleFile source? => exact keeps.elim
  | checkExport moduleFile symbols preceding statement => exact keeps.elim

/-- An answer that is kept and can be recalled is given again. -/
lemma ask_of_recollection (wf : memo.WellFormed) (wf' : memo'.WellFormed) (grows : memo.Grows memo')
    (keeps : run.Keeps disk later operation)
    (recalled : memo.recollection.answer run disk operation = .ok answer) :
    run.ask later memo' operation = .ok answer := by
  have within := grows.within run later
  rw [ask_eq_answer wf']
  cases operation with
  | testFiles =>
    obtain ⟨files, known, rfl⟩ := Outcome.map_eq_ok.mp recalled
    exact Outcome.map_eq_ok.mpr ⟨files, within.files known, rfl⟩
  | importFacts file =>
    obtain ⟨facts, known, rfl⟩ := Outcome.map_eq_ok.mp recalled
    exact Outcome.map_eq_ok.mpr ⟨facts, within.imports known, rfl⟩
  | isCovered name moduleFile =>
    obtain ⟨covered, known, rfl⟩ := Outcome.map_eq_ok.mp recalled
    exact Outcome.map_eq_ok.mpr ⟨covered, within.isCovered wf.rooted_recollection keeps known, rfl⟩
  | target testFile moduleFile => exact keeps.elim
  | shouldCheck moduleFile => exact keeps.elim
  | checkModule moduleFile source? => exact keeps.elim
  | checkExport moduleFile symbols preceding statement => exact keeps.elim

/-- The sample project covers `f`. -/
lemma ask_sample : sampleRun.ask sampleDisk .empty (.isCovered "f" "/lib/index.ts")
    = .ok (.verdict true) := by
  rw [ask_eq_answer Memo.wellFormed_empty, Reading.answer, isCovered_sample]
  rfl

/-- After every history of a run no parsed file is left in the cache and nothing that was known is
lost, and an answer about test files, imports or coverage is given again on every later disk. -/
theorem ask_stable (run : Run) (past between : List (Disk × Operation)) :
    (run.replay past .empty).cache = .empty ∧
      (run.replay past .empty).Grows (run.replay (past ++ between) .empty) ∧
      ∀ disk operation answer,
        run.ask disk (run.replay past .empty) operation = .ok answer →
        ∀ later, run.Keeps disk later operation →
        run.ask later (run.replay (past ++ (disk, operation) :: between) .empty) operation
          = .ok answer := by
  have wf := wellFormed_replay run past
  refine ⟨wf.cache, ?_, fun disk operation answer answered later keeps => ?_⟩
  · rw [replay_append]
    exact (evolves_replay run between _ wf).2
  · obtain ⟨wf', _⟩ := evolves_step run (run.replay past .empty) (disk, operation) wf
    obtain ⟨wf'', grows⟩ := evolves_replay run between _ wf'
    rw [replay_append]
    exact ask_of_recollection wf' wf'' grows keeps (recollection_step wf keeps answered)

/-- The sample run still answers that `f` is covered after everything has been deleted. -/
theorem ask_stable_deleted :
    sampleRun.ask ⟨.empty, []⟩
      (sampleRun.replay [(sampleDisk, .isCovered "f" "/lib/index.ts"), (⟨.empty, []⟩, .testFiles)]
        .empty)
      (.isCovered "f" "/lib/index.ts") = .ok (.verdict true) := by
  have unmoved : sampleRun.Keeps sampleDisk ⟨.empty, []⟩ (.isCovered "f" "/lib/index.ts") := by
    rw [Keeps]
    decide +kernel
  exact (ask_stable sampleRun [] [(⟨.empty, []⟩, .testFiles)]).2.2 _ _ _ ask_sample _ unmoved

end ExportCover.Run
