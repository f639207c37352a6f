import ExportCover.Proofs.Run.Memo

/-!
# Histories of a run

A history is a sequence of operations, each on the disk as it was at that moment. Every memo that a
run can have is the memo after some history of the new run, and is well-formed. On a disk that does
not change a history leaves no mark: each of its operations answers as it would in a new run
(`answers_eq_fresh`).
-/

namespace ExportCover.Run

open Work

/-- The answer to a question, or the fault that it ends with. -/
def ask (run : Run) (disk : Disk) (memo : Memo) (operation : Operation) : Except Fault Answer :=
  ((run.perform disk operation).runWith memo).1

/-- What is known after a question, answered or not. -/
def step (run : Run) (memo : Memo) (event : Disk × Operation) : Memo :=
  ((run.perform event.1 event.2).runWith memo).2.memo

/-- What is known after a history. -/
def replay (run : Run) (history : List (Disk × Operation)) (memo : Memo) : Memo :=
  history.foldl run.step memo

/-- The answers to the questions of a history. -/
def answers (run : Run) : List (Disk × Operation) → Memo → List (Except Fault Answer)
  | [], _ => []
  | event :: rest, memo => run.ask event.1 memo event.2 :: answers run rest (run.step memo event)

variable {run : Run} {disk : Disk} {memo : Memo}

/-- A history goes on where another ends. -/
lemma replay_append (run : Run) (past rest : List (Disk × Operation)) (memo : Memo) :
    run.replay (past ++ rest) memo = run.replay rest (run.replay past memo) :=
  List.foldl_append

/-- The last operation meets what the others left. -/
lemma replay_concat (run : Run) (past : List (Disk × Operation)) (event : Disk × Operation)
    (memo : Memo) : run.replay (past ++ [event]) memo = run.step (run.replay past memo) event :=
  replay_append run past [event] memo

/-- Every operation keeps a memo well-formed and loses nothing. -/
lemma evolves_step (run : Run) (memo : Memo) (event : Disk × Operation) :
    memo.Evolves (run.step memo event) :=
  evolves_perform run event.1 event.2 ⟨memo, []⟩

/-- A history loses nothing. -/
lemma evolves_replay (run : Run) (history : List (Disk × Operation)) (memo : Memo) :
    memo.Evolves (run.replay history memo) := by
  induction history generalizing memo with
  | nil => exact .refl memo
  | cons event rest ih => exact (evolves_step run memo event).trans (ih (run.step memo event))

/-- Every memo of a run is well-formed. -/
lemma wellFormed_replay (run : Run) (history : List (Disk × Operation)) :
    (run.replay history .empty).WellFormed :=
  (evolves_replay run history .empty Memo.wellFormed_empty).1

/-- An answer is read off what the memo and the disk show. -/
lemma ask_eq_answer (wf : memo.WellFormed) (operation : Operation) :
    run.ask disk memo operation = (run.reading disk memo).answer run disk operation :=
  (shows_perform operation).outcome_eq ⟨wf, rfl⟩

/-- A question leaves what the memo and the disk show as it was. -/
lemma reading_step (wf : memo.WellFormed) (operation : Operation) :
    run.reading disk (run.step memo (disk, operation)) = run.reading disk memo :=
  ((shows_perform operation ⟨memo, []⟩ ⟨wf, rfl⟩).2).2

/-- Questions on one disk leave what the memo and the disk show as it was. -/
lemma reading_replay (wf : memo.WellFormed) (operations : List Operation) :
    run.reading disk (run.replay (operations.map (disk, ·)) memo) = run.reading disk memo := by
  induction operations generalizing memo with
  | nil => rfl
  | cons operation rest ih =>
    have wf' := (evolves_step run memo (disk, operation) wf).1
    exact (ih wf').trans (reading_step wf operation)

/-- On one disk, two memos that show the same answer alike from then on. -/
lemma answers_eq_map {reading : Reading} (operations : List Operation) (wf : memo.WellFormed)
    (shows : run.reading disk memo = reading) :
    run.answers (operations.map (disk, ·)) memo = operations.map (reading.answer run disk) := by
  induction operations generalizing memo with
  | nil => rfl
  | cons operation rest ih =>
    rw [List.map_cons, answers, ask_eq_answer wf, shows, List.map_cons]
    congr 1
    apply ih
    · exact (evolves_step run memo (disk, operation) wf).1
    · rw [reading_step wf, shows]

/-- On a disk that does not change, every operation of a run answers as in a new run, whatever was
asked before it and whether that was answered or not. -/
theorem answers_eq_fresh (run : Run) (disk : Disk) (operations : List Operation) :
    run.answers (operations.map (disk, ·)) .empty = operations.map (run.ask disk .empty) := by
  rw [answers_eq_map operations Memo.wellFormed_empty rfl]
  refine List.map_congr_left fun operation _ => ?_
  rw [ask_eq_answer Memo.wellFormed_empty]

end ExportCover.Run
