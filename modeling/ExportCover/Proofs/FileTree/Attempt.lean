import ExportCover.FileTree.Attempt
import ExportCover.Proofs.FileTree.Replace

/-!
# Sequences of calls

`Attempt.exec` follows a sequence of calls from any system and has one equation for each way to
build a sequence. The judgment `Attempt.Leaves` says what a sequence leaves behind, whatever the
system refuses: one thing if it succeeds and another one if it fails. It is closed under these ways.
Where nothing is refused, the calls by which a file is replaced amount to `FileTree.replaceFile`
(`Attempt.exec_replaceFile_tried`).
-/

namespace ExportCover

/-- The outcome of an edit: nothing but the error if there is one. -/
def Edited.outcome (edited : Edited) : Except SystemError Unit :=
  match edited.error with
  | none => .ok ()
  | some error => .error error

namespace FileTree

variable {tree : FileTree} {path : List String} {error : SystemError}

/-- A directory that cannot be made leaves no trace. -/
lemma makeDirectory_of_error (failed : (tree.makeDirectory path).error = some error) :
    tree.makeDirectory path = ⟨tree, some error⟩ := by
  rw [makeDirectory] at failed ⊢
  split at failed
  next => cases failed
  next => split at failed <;> simp_all

/-- Another directory is made first only if an entry is missing and there is one above. -/
lemma makeDirectoriesWithin_succ (depth : Nat) (tree : FileTree) (path : List String) :
    makeDirectoriesWithin (depth + 1) tree path = match (tree.makeDirectory path).error with
      | none => tree.makeDirectory path
      | some error =>
        if error != .noEntry || path.isEmpty then tree.makeDirectory path
        else
          let above := makeDirectoriesWithin depth tree path.dropLast
          match above.error with
          | some error => ⟨above.tree, some error⟩
          | none => above.tree.makeDirectory path := by
  rw [makeDirectoriesWithin]
  cases (tree.makeDirectory path).error with
  | none => rfl
  | some error => cases error <;> rfl

/-- Of two entries that are put at a path in a row the later one counts. -/
lemma put_put (tree : FileTree) (path : Path) (entry entry' : Entry) :
    (tree.put path entry).put path entry' = tree.put path entry' := by
  by_cases mem : path ∈ tree.entries.map (·.1)
  · have mem' : path ∈ (tree.put path entry).entries.map (·.1) := by rwa [paths_put, if_pos mem]
    rw [put_of_mem mem', put_of_mem mem, put_of_mem mem, List.map_map]
    refine congrArg mk (List.map_congr_left fun listed _ => ?_)
    rw [Function.comp_apply]
    split
    next => simp
    next => rfl
  · have mem' : path ∈ (tree.put path entry).entries.map (·.1) := by simp [paths_put, mem]
    have kept : tree.entries.map (fun listed => if listed.1 == path then (path, entry') else listed)
        = tree.entries := by
      refine (List.map_congr_left fun listed among => ?_).trans (List.map_id _)
      have ne : listed.1 ≠ path := fun same => mem (same ▸ List.mem_map_of_mem among)
      simp [ne]
    rw [put_of_mem mem', put_of_notMem mem, put_of_notMem mem, List.map_append, kept]
    simp

end FileTree

namespace Attempt

variable {α β : Type}

/-- Looking at the system leaves it as it is. -/
@[simp]
lemma exec_get (system : System) : (get : Attempt System).exec system = (.ok system, system) :=
  rfl

/-- A sequence stops at the first error and keeps what was done before it. -/
lemma exec_bind (attempt : Attempt α) (next : α → Attempt β) (system : System) :
    (attempt >>= next).exec system = match attempt.exec system with
      | (.ok a, system) => (next a).exec system
      | (.error error, system) => (.error error, system) := by
  simp only [exec, ExceptT.run_bind, StateT.run_bind, Id.run_bind]
  generalize (Id.run (StateT.run (ExceptT.run attempt) system)) = result
  obtain ⟨_ | _, _⟩ := result <;> rfl

/-- What was done before an error is there when the error is handled. -/
lemma exec_tryCatch (attempt : Attempt α) (handle : SystemError → Attempt α) (system : System) :
    (tryCatch attempt handle).exec system = match attempt.exec system with
      | (.ok a, system) => (.ok a, system)
      | (.error error, system) => (handle error).exec system := by
  simp only [exec, tryCatch, tryCatchThe, MonadExceptOf.tryCatch, ExceptT.tryCatch, ExceptT.run,
    ExceptT.mk, StateT.run_bind, Id.run_bind]
  generalize Id.run (StateT.run attempt system) = result
  obtain ⟨_ | _, _⟩ := result <;> rfl

/-- A sequence fails with the error of its first part, or of the rest. -/
lemma exec_bind_eq_error_iff {attempt : Attempt α} {next : α → Attempt β} {system : System}
    {error : SystemError} : ((attempt >>= next).exec system).1 = .error error ↔
      (attempt.exec system).1 = .error error ∨
        ∃ a after, attempt.exec system = (.ok a, after) ∧
          ((next a).exec after).1 = .error error := by
  rw [exec_bind]
  rcases attempt.exec system with ⟨_ | _, _⟩ <;> simp

/-- Removing a file after an error keeps the error. -/
lemma exec_discarding (attempt : Attempt α) (place : Path) (system : System) :
    ((tryCatch attempt fun error => do discard place; throw error).exec system).1
      = (attempt.exec system).1 := by
  rw [exec_tryCatch]
  rcases attempt.exec system with ⟨_ | _, _⟩ <;> rfl

/-- From a tree, a sequence of calls leaves a tree of one kind if it succeeds and a tree of another
kind if it fails, whatever the system refuses. -/
def Leaves (attempt : Attempt α) (before : FileTree) (done : α → FileTree → Prop)
    (failed : FileTree → Prop) : Prop :=
  ∀ answers, match attempt.exec ⟨before, answers⟩ with
    | (.ok a, system) => done a system.tree
    | (.error _, system) => failed system.tree

namespace Leaves

variable {attempt : Attempt α} {before : FileTree} {done : α → FileTree → Prop}
  {failed : FileTree → Prop}

/-- A sequence that succeeds leaves a tree of the first kind. -/
lemma of_ok (leaves : Leaves attempt before done failed) {answers : List (Option Refusal)} {a : α}
    (succeeded : (attempt.exec ⟨before, answers⟩).1 = .ok a) :
    done a (attempt.exec ⟨before, answers⟩).2.tree := by
  have here := leaves answers
  split at here <;> simp_all

/-- A sequence that fails leaves a tree of the second kind. -/
lemma of_error (leaves : Leaves attempt before done failed) {answers : List (Option Refusal)}
    {error : SystemError} (stopped : (attempt.exec ⟨before, answers⟩).1 = .error error) :
    failed (attempt.exec ⟨before, answers⟩).2.tree := by
  have here := leaves answers
  split at here <;> simp_all

/-- A sequence that leaves something leaves what follows from it. -/
lemma mono {done' : α → FileTree → Prop} {failed' : FileTree → Prop}
    (leaves : Leaves attempt before done failed) (onDone : ∀ a tree, done a tree → done' a tree)
    (onFailed : ∀ tree, failed tree → failed' tree) : Leaves attempt before done' failed' := by
  intro answers
  have here := leaves answers
  split at here
  next a system _ => exact onDone a system.tree here
  next error system _ => exact onFailed system.tree here

/-- Doing nothing leaves the tree as it was. -/
lemma pure {a : α} (holds : done a before) : Leaves (Pure.pure a) before done failed :=
  fun _ => holds

/-- Giving up leaves the tree as it was. -/
lemma throw {error : SystemError} (holds : failed before) :
    Leaves (MonadExcept.throw error) before done failed :=
  fun _ => holds

/-- Removing a file leaves the tree without it. -/
lemma discard {place : Path} {done : Unit → FileTree → Prop}
    (holds : done () (before.prune place)) :
    Leaves (Attempt.discard place) before done failed :=
  fun _ => holds

/-- A call that is tried does what it does to the tree, and a refused one is cut off. -/
lemma call {carryOut : FileTree → Except SystemError (α × FileTree)}
    {cut : Nat → FileTree → FileTree}
    (tried : ∀ a tree, carryOut before = .ok (a, tree) → done a tree) (refused : failed before)
    (cutOff : ∀ written, failed (cut written before)) :
    Leaves (Attempt.call carryOut cut) before done failed := by
  intro answers
  obtain _ | ⟨_ | refusal, later⟩ := answers
  case cons.some => exact cutOff refusal.written
  all_goals
    cases carried : carryOut before with
    | error error =>
      simp only [exec, Attempt.call, ExceptT.run, ExceptT.mk, StateT.run, carried, Id.run]
      exact refused
    | ok result =>
      simp only [exec, Attempt.call, ExceptT.run, ExceptT.mk, StateT.run, carried, Id.run]
      exact tried _ _ carried

/-- What follows starts from a tree that was left. -/
lemma bind {next : α → Attempt β} {mid : α → FileTree → Prop} {done : β → FileTree → Prop}
    (first : Leaves attempt before mid failed)
    (rest : ∀ a tree, mid a tree → Leaves (next a) tree done failed) :
    Leaves (attempt >>= next) before done failed := by
  intro answers
  have here := first answers
  rw [exec_bind]
  split at here
  next a system found => exact rest a system.tree here system.answers
  next error system found => exact here

/-- Looking at the tree does not change it. -/
lemma look {next : System → Attempt α}
    (rest : ∀ system, system.tree = before → Leaves (next system) before done failed) :
    Leaves (get >>= next) before done failed :=
  fun answers => rest ⟨before, answers⟩ rfl answers

/-- An error is handled on a tree that was left by it. -/
lemma tryCatch {handle : SystemError → Attempt α} {broken : FileTree → Prop}
    (first : Leaves attempt before done broken)
    (rest : ∀ error tree, broken tree → Leaves (handle error) tree done failed) :
    Leaves (MonadExcept.tryCatch attempt handle) before done failed := by
  intro answers
  have here := first answers
  rw [exec_tryCatch]
  split at here
  next a system found => exact here
  next error system found => exact rest error system.tree here system.answers

end Leaves

section Tried

variable {tree : FileTree} {path : List String}

/-- A call that is tried has the outcome that the tree gives it. -/
lemma exec_call_tried (carryOut : FileTree → Except SystemError (α × FileTree))
    (cut : Nat → FileTree → FileTree) (tree : FileTree) :
    (call carryOut cut).exec ⟨tree, []⟩ = match carryOut tree with
      | .ok (a, after) => (.ok a, ⟨after, []⟩)
      | .error error => (.error error, ⟨tree, []⟩) := by
  simp only [exec, call, ExceptT.run, ExceptT.mk, StateT.run, Id.run]
  cases carryOut tree <;> rfl

/-- A directory is made as the tree makes it if nothing is refused. -/
lemma exec_makeDirectory_tried (tree : FileTree) (path : List String) :
    (makeDirectory path).exec ⟨tree, []⟩
      = ((tree.makeDirectory path).outcome, ⟨(tree.makeDirectory path).tree, []⟩) := by
  rw [makeDirectory, exec_tryCatch, exec_call_tried, FileTree.makeDirectory]
  cases tree.add path .directory with
  | ok after => rfl
  | error error =>
    dsimp only [Functor.map, Except.map]
    rw [exec_bind, exec_get]
    dsimp only
    split <;> rfl

/-- Directories are made as the tree makes them if nothing is refused. -/
lemma exec_makeDirectoriesWithin_tried (depth : Nat) (tree : FileTree) (path : List String) :
    (makeDirectoriesWithin depth path).exec ⟨tree, []⟩
      = ((FileTree.makeDirectoriesWithin depth tree path).outcome,
          ⟨(FileTree.makeDirectoriesWithin depth tree path).tree, []⟩) := by
  induction depth generalizing tree path with
  | zero => exact exec_makeDirectory_tried tree path
  | succ depth ih =>
    rw [makeDirectoriesWithin, exec_tryCatch, exec_makeDirectory_tried,
      FileTree.makeDirectoriesWithin_succ]
    cases failed : (tree.makeDirectory path).error with
    | none => simp only [Edited.outcome, failed]
    | some error =>
      rw [FileTree.makeDirectory_of_error failed]
      simp only [Edited.outcome]
      split
      next => rfl
      next =>
        rw [exec_bind, ih]
        cases raised : (FileTree.makeDirectoriesWithin depth tree path.dropLast).error with
        | none => simpa only [Edited.outcome, raised] using exec_makeDirectory_tried _ path
        | some error => simp only [Edited.outcome, raised]

/-- Where nothing is refused, the calls by which a file is replaced amount to the edit. -/
theorem exec_replaceFile_tried (tree : FileTree) (path : List String) (content : Bytes) :
    (replaceFile FileTree.freshName path content).exec ⟨tree, []⟩
      = ((tree.replaceFile path content).outcome, ⟨(tree.replaceFile path content).tree, []⟩) := by
  rw [replaceFile, exec_bind, makeDirectories, exec_makeDirectoriesWithin_tried,
    FileTree.replaceFile, FileTree.withParents, FileTree.makeDirectories]
  generalize FileTree.makeDirectoriesWithin path.dropLast.length tree path.dropLast = above
  obtain ⟨made, _ | error⟩ := above
  case some => rfl
  case none =>
    dsimp only [Edited.outcome]
    rw [exec_bind, openTemporary, exec_call_tried]
    cases made.folderAt (Path.follow [] path.dropLast) with
    | error error => rfl
    | ok directory =>
      dsimp only [Functor.map, Except.map]
      rw [exec_tryCatch, exec_bind, fill, exec_call_tried]
      dsimp only
      rw [FileTree.put_put, moveOver, exec_call_tried]
      generalize FileTree.moveOver _ _ path = moved
      cases moved with
      | ok moved => rfl
      | error error => rfl

end Tried

end Attempt

end ExportCover
