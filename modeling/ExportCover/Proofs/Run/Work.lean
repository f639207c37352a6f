import ExportCover.Proofs.Outcome
import ExportCover.Run.Basic

/-!
# Operations of a run, followed step by step

`Work.exec` follows an operation from any trace and has one equation for each way to build an
operation. Two judgments about operations are closed under these ways. `Work.Gives` says that an
operation keeps an invariant of the memo and that its outcome does not depend on the memo beyond
that invariant. `Work.Moves` says how the memo after an operation is related to the memo before it,
whether the operation succeeds or fails.
-/

namespace ExportCover.Work

variable {α β : Type}

/-- The outcome of an operation and the trace that it leaves, from any trace. -/
def exec (work : Work α) (trace : Trace) : Except Fault α × Trace :=
  Id.run (StateT.run (ExceptT.run work) trace)

/-- A value by itself leaves the trace as it is. -/
@[simp]
lemma exec_pure (a : α) (trace : Trace) : (pure a : Work α).exec trace = (.ok a, trace) :=
  rfl

/-- A sequence stops at the first fault and keeps what was learned before it. -/
lemma exec_bind (work : Work α) (next : α → Work β) (trace : Trace) :
    (work >>= next).exec trace = match work.exec trace with
      | (.ok a, trace) => (next a).exec trace
      | (.error fault, trace) => (.error fault, trace) := by
  simp only [exec, ExceptT.run_bind, StateT.run_bind, Id.run_bind]
  generalize (Id.run (StateT.run (ExceptT.run work) trace)) = result
  obtain ⟨_ | _, _⟩ := result <;> rfl

/-- A sequence that succeeds succeeds at its first step. -/
lemma exec_bind_eq_ok {work : Work α} {next : α → Work β} {trace trace' : Trace} {b : β} :
    (work >>= next).exec trace = (.ok b, trace') ↔
      ∃ a mid, work.exec trace = (.ok a, mid) ∧ (next a).exec mid = (.ok b, trace') := by
  rw [exec_bind]
  generalize work.exec trace = result
  obtain ⟨_ | a, mid⟩ := result
  case error => simp
  case ok =>
    refine ⟨fun rest => ⟨a, mid, rfl, rest⟩, ?_⟩
    rintro ⟨_, _, same, rest⟩
    cases same
    exact rest

/-- What was learned before a fault is there when the fault is handled. -/
lemma exec_tryCatch (work : Work α) (handle : Fault → Work α) (trace : Trace) :
    (tryCatch work handle).exec trace = match work.exec trace with
      | (.ok a, trace) => (.ok a, trace)
      | (.error fault, trace) => (handle fault).exec trace := by
  simp only [exec, tryCatch, tryCatchThe, MonadExceptOf.tryCatch, ExceptT.tryCatch, ExceptT.run,
    ExceptT.mk, StateT.run_bind, Id.run_bind]
  generalize Id.run (StateT.run work trace) = result
  obtain ⟨_ | _, _⟩ := result <;> rfl

/-- What may fail on its own leaves the trace as it is. -/
@[simp]
lemma exec_lift (outcome : Except Fault α) (trace : Trace) :
    (liftM outcome : Work α).exec trace = (outcome, trace) :=
  rfl

/-- A sequence that starts with an outcome from outside succeeds if that outcome is a value. -/
lemma exec_lift_bind_eq_ok {outcome : Except Fault α} {next : α → Work β} {trace trace' : Trace}
    {b : β} :
    ((liftM outcome : Work α) >>= next).exec trace = (.ok b, trace') ↔
      ∃ a, outcome = .ok a ∧ (next a).exec trace = (.ok b, trace') := by
  rw [exec_bind, exec_lift]
  cases outcome with
  | error fault => simp
  | ok a => simp

/-- Looking at the memo leaves the trace as it is. -/
@[simp]
lemma exec_memo (trace : Trace) : Work.memo.exec trace = (.ok trace.memo, trace) :=
  rfl

/-- Changing the memo changes nothing else. -/
@[simp]
lemma exec_modifyMemo (f : Memo → Memo) (trace : Trace) :
    (modifyMemo f).exec trace = (.ok (), { trace with memo := f trace.memo }) :=
  rfl

/-- A notice is put behind the others. -/
@[simp]
lemma exec_note (notice : Notice) (trace : Trace) :
    (note notice).exec trace = (.ok (), { trace with notices := trace.notices ++ [notice] }) :=
  rfl

/-- Notices are put behind the others. -/
@[simp]
lemma exec_noteAll (notices : List Notice) (trace : Trace) :
    (noteAll notices).exec trace = (.ok (), { trace with notices := trace.notices ++ notices }) :=
  rfl

/-- The operation keeps `kept`, and wherever `kept` holds its outcome is `outcome`. -/
def Gives (kept : Memo → Prop) (work : Work α) (outcome : Except Fault α) : Prop :=
  ∀ trace, kept trace.memo → (work.exec trace).1 = outcome ∧ kept (work.exec trace).2.memo

/-- The memo before the operation and the memo after it are related. -/
def Moves (related : Memo → Memo → Prop) (work : Work α) : Prop :=
  ∀ trace, related trace.memo (work.exec trace).2.memo

namespace Gives

variable {kept : Memo → Prop} {work : Work α} {outcome : Except Fault α}

/-- A value by itself gives that value. -/
lemma pure (a : α) : Gives kept (Pure.pure a) (.ok a) :=
  fun _ keeps => ⟨rfl, keeps⟩

/-- What may fail on its own gives its outcome. -/
lemma lift (outcome : Except Fault α) : Gives kept (liftM outcome) outcome :=
  fun _ keeps => ⟨rfl, keeps⟩

/-- Noting something cannot fail. -/
lemma note (notice : Notice) : Gives kept (Work.note notice) (.ok ()) :=
  fun _ keeps => ⟨rfl, keeps⟩

/-- Outcomes compose along sequences, and a fault ends both sides. -/
lemma bind {next : α → Work β} {after : α → Except Fault β} (first : Gives kept work outcome)
    (rest : ∀ a, outcome = .ok a → Gives kept (next a) (after a)) :
    Gives kept (work >>= next) (outcome >>= after) := by
  intro trace keeps
  obtain ⟨same, keeps'⟩ := first trace keeps
  rw [exec_bind]
  generalize work.exec trace = result at same keeps'
  obtain ⟨_ | a, trace'⟩ := result
  case error => subst same; exact ⟨rfl, keeps'⟩
  case ok => subst same; exact rest a rfl trace' keeps'

/-- Handled faults compose as sequences do. -/
lemma tryCatch {handle : Fault → Work α} {handled : Fault → Except Fault α}
    (first : Gives kept work outcome)
    (rest : ∀ fault, outcome = .error fault → Gives kept (handle fault) (handled fault)) :
    Gives kept (MonadExcept.tryCatch work handle) (MonadExcept.tryCatch outcome handled) := by
  intro trace keeps
  obtain ⟨same, keeps'⟩ := first trace keeps
  rw [exec_tryCatch]
  generalize work.exec trace = result at same keeps'
  obtain ⟨_ | a, trace'⟩ := result
  case error fault => subst same; exact rest fault rfl trace' keeps'
  case ok => subst same; exact ⟨rfl, keeps'⟩

/-- A last step that only gives the value another form. -/
lemma map {next : α → Work β} {f : α → β} (first : Gives kept work outcome)
    (rest : ∀ a, outcome = .ok a → Gives kept (next a) (.ok (f a))) :
    Gives kept (work >>= next) (f <$> outcome) := by
  have bound := first.bind rest
  cases outcome with
  | ok a => exact bound
  | error fault => exact bound

/-- A note about the result changes no outcome. -/
lemma noting (first : Gives kept work outcome) (notice : α → Notice) :
    Gives kept (work >>= fun a => Work.note (notice a) >>= fun _ => Pure.pure a) outcome := by
  have noted := first.map (f := id) fun a _ => (note (notice a)).bind fun _ _ => pure a
  rwa [id_map] at noted

/-- The outcome of an operation that starts where the invariant holds. -/
lemma outcome_eq {memo : Memo} (gives : Gives kept work outcome) (keeps : kept memo) :
    (work.runWith memo).1 = outcome :=
  (gives ⟨memo, []⟩ keeps).1

end Gives

namespace Moves

variable {related : Memo → Memo → Prop} {work : Work α}

section
variable (refl : ∀ memo, related memo memo)
include refl

/-- A value by itself does not move the memo. -/
lemma pure (a : α) : Moves related (Pure.pure a : Work α) :=
  fun trace => refl trace.memo

/-- What may fail on its own does not move the memo. -/
lemma lift (outcome : Except Fault α) : Moves related (liftM outcome : Work α) :=
  fun trace => refl trace.memo

/-- Noting something does not move the memo. -/
lemma note (notice : Notice) : Moves related (Work.note notice) :=
  fun trace => refl trace.memo

end

/-- Moves compose along sequences; a fault stops after the first of them. -/
lemma bind {next : α → Work β} (trans : ∀ {a b c}, related a b → related b c → related a c)
    (first : Moves related work) (rest : ∀ a, Moves related (next a)) :
    Moves related (work >>= next) := by
  intro trace
  have moved := first trace
  rw [exec_bind]
  generalize work.exec trace = result at moved
  obtain ⟨_ | a, trace'⟩ := result
  case error => exact moved
  case ok => exact trans moved (rest a trace')

/-- A note about the result moves nothing further. -/
lemma noting (refl : ∀ memo, related memo memo)
    (trans : ∀ {a b c}, related a b → related b c → related a c)
    (first : Moves related work) (notice : α → Notice) :
    Moves related (work >>= fun a => Work.note (notice a) >>= fun _ => Pure.pure a) :=
  first.bind trans fun a => (note refl (notice a)).bind trans fun _ => pure refl a

end Moves

end ExportCover.Work
