import ExportCover.Discovery
import ExportCover.Proofs.FileTree.Canonical

/-!
# What a walk visits

A walk lists directories, one after the other, and reports test files among their entries. `visits`
are the directories that it lists, each with the path that the walk took to it. A directory is
listed at most once (`nodup_visits`), and whatever an entry of a listed directory leads to is listed
too (`isListed_of_descend`), be it through another path. All test files come from the visits
(`filesOf_walk`).
-/

namespace ExportCover.Discovery

open FileTree

/-- A directory that a walk lists: the path that it took, and where that leads. -/
structure Visit where
  taken : Path
  place : Path
deriving DecidableEq, Repr

/-- What the entries of the directory mean for the walk. -/
def Visit.findings (tree : FileTree) (query : Query) (visit : Visit) : List Finding :=
  (tree.namesIn visit.place).map (inspect tree query visit.taken)

/-- The test files among the entries of the directory. -/
def Visit.files (tree : FileTree) (query : Query) (visit : Visit) : List Path :=
  filesOf (eventsOf (visit.findings tree query))

/-- The directories that a walk lists, in its order. -/
def visits (tree : FileTree) (query : Query) (visited : List Path) : List Path → List Visit
  | [] => []
  | directory :: queue =>
    match tree.locate directory with
    | .error _ => visits tree query visited queue
    | .ok place =>
      if _isOld : visited.contains place = true then visits tree query visited queue
      else if _isDirectory : tree.isDirectoryAt place = true then
        let visit : Visit := ⟨directory, place⟩
        visit :: visits tree query (place :: visited)
          (queue ++ directoriesOf (visit.findings tree query))
      else visits tree query visited queue
termination_by queue => ((unvisited tree visited).length, queue.length)
decreasing_by
  · exact Prod.Lex.right _ (by simp)
  · exact Prod.Lex.right _ (by simp)
  · exact Prod.Lex.left _ _ (unvisited_cons_lt _isDirectory (by simpa using _isOld))
  · exact Prod.Lex.right _ (by simp)

variable {tree : FileTree} {query : Query} {visited queue : List Path} {directory place : Path}
  {name : String} {visit : Visit}

section Order

/-- A path that leads nowhere is not visited. -/
lemma visits_lost {error : SystemError} (lost : tree.locate directory = .error error) :
    visits tree query visited (directory :: queue) = visits tree query visited queue := by
  rw [visits, lost]

/-- A place that was visited is not visited again. -/
lemma visits_old (located : tree.locate directory = .ok place) (old : place ∈ visited) :
    visits tree query visited (directory :: queue) = visits tree query visited queue := by
  rw [visits, located]
  simp [old]

/-- What is no directory is not visited. -/
lemma visits_file (located : tree.locate directory = .ok place)
    (isFile : tree.isDirectoryAt place = false) :
    visits tree query visited (directory :: queue) = visits tree query visited queue := by
  rw [visits, located]
  simp [isFile]

/-- A new directory is listed, and the directories in it come after those that wait already. -/
lemma visits_new (located : tree.locate directory = .ok place) (new : place ∉ visited)
    (isDirectory : tree.isDirectoryAt place = true) :
    visits tree query visited (directory :: queue)
      = ⟨directory, place⟩ :: visits tree query (place :: visited)
          (queue ++ directoriesOf (Visit.findings tree query ⟨directory, place⟩)) := by
  rw [visits, located]
  simp [isDirectory, new]

/-- No directory is listed twice, and none that was listed before. -/
lemma nodup_visits : ((visits tree query visited queue).map (·.place)).Nodup ∧
    ∀ visit ∈ visits tree query visited queue, visit.place ∉ visited := by
  fun_induction visits tree query visited queue with
  | case1 => simp
  | case2 visited directory queue error lost ih => exact ih
  | case3 visited directory queue place located old ih => exact ih
  | case4 visited directory queue place located new isDirectory visit ih =>
    obtain ⟨nodup, fresh⟩ := ih
    refine ⟨?_, ?_⟩
    · rw [List.map_cons, List.nodup_cons]
      refine ⟨fun mem => ?_, nodup⟩
      obtain ⟨later, later_mem, same⟩ := List.mem_map.mp mem
      exact fresh later later_mem (by simp [same, visit])
    · rw [List.forall_mem_cons]
      refine ⟨by simpa using new, fun later mem => ?_⟩
      exact fun old => fresh later mem (List.mem_cons_of_mem _ old)
  | case5 visited directory queue place located new isFile ih => exact ih

/-- A directory is listed before or during the walk. -/
def IsListed (tree : FileTree) (query : Query) (visited queue : List Path) (place : Path) : Prop :=
  place ∈ visited ∨ ∃ visit ∈ visits tree query visited queue, visit.place = place

/-- What is listed after the next directory is listed with it. -/
lemma IsListed.of_new {other : Path} (located : tree.locate directory = .ok place)
    (new : place ∉ visited) (isDirectory : tree.isDirectoryAt place = true)
    (listed : IsListed tree query (place :: visited)
      (queue ++ directoriesOf (Visit.findings tree query ⟨directory, place⟩)) other) :
    IsListed tree query visited (directory :: queue) other := by
  rw [IsListed, visits_new located new isDirectory]
  obtain old | ⟨visit, mem, same⟩ := listed
  · obtain rfl | old := List.mem_cons.mp old
    · exact .inr ⟨_, List.mem_cons_self, rfl⟩
    · exact .inl old
  · exact .inr ⟨visit, List.mem_cons_of_mem _ mem, same⟩

/-- A directory that waits in the queue is listed, unless it was before. -/
lemma isListed_of_mem_queue (mem : directory ∈ queue) (located : tree.locate directory = .ok place)
    (isDirectory : tree.isDirectoryAt place = true) :
    IsListed tree query visited queue place := by
  -- In each step the directory comes first in the queue, or it goes on waiting.
  fun_induction visits tree query visited queue with
  | case1 => cases mem
  | case2 visited first queue error lost ih =>
    obtain rfl | mem := List.mem_cons.mp mem
    · cases lost.symm.trans located
    · rw [IsListed, visits_lost lost]
      exact ih mem
  | case3 visited first queue place' located' old ih =>
    have old : place' ∈ visited := by simpa using old
    obtain rfl | mem := List.mem_cons.mp mem
    · cases located.symm.trans located'
      exact .inl old
    · rw [IsListed, visits_old located' old]
      exact ih mem
  | case4 visited first queue place' located' new isDirectory' visit ih =>
    have new : place' ∉ visited := by simpa using new
    obtain rfl | mem := List.mem_cons.mp mem
    · cases located.symm.trans located'
      rw [IsListed, visits_new located' new isDirectory']
      exact .inr ⟨_, List.mem_cons_self, rfl⟩
    · exact (ih (List.mem_append_left _ mem)).of_new located' new isDirectory'
  | case5 visited first queue place' located' new isFile ih =>
    obtain rfl | mem := List.mem_cons.mp mem
    · cases located.symm.trans located'
      exact absurd isDirectory isFile
    · rw [IsListed, visits_file located' (by simpa using isFile)]
      exact ih mem

/-- A directory that an entry of a listed directory leads to is listed, through whatever path. -/
lemma isListed_of_descend {path : Path} (mem : visit ∈ visits tree query visited queue)
    (descends : path ∈ directoriesOf (visit.findings tree query))
    (located : tree.locate path = .ok place) (isDirectory : tree.isDirectoryAt place = true) :
    IsListed tree query visited queue place := by
  fun_induction visits tree query visited queue with
  | case1 => cases mem
  | case2 visited first queue error lost ih =>
    rw [IsListed, visits_lost lost]
    exact ih mem
  | case3 visited first queue place' located' old ih =>
    rw [IsListed, visits_old located' (by simpa using old)]
    exact ih mem
  | case4 visited first queue place' located' new isDirectory' visit' ih =>
    refine IsListed.of_new located' (by simpa using new) isDirectory' ?_
    obtain rfl | mem := List.mem_cons.mp mem
    · exact isListed_of_mem_queue (List.mem_append_right _ descends) located isDirectory
    · exact ih mem
  | case5 visited first queue place' located' new isFile ih =>
    rw [IsListed, visits_file located' (by simpa using isFile)]
    exact ih mem

/-- A property of visits holds of a whole walk if every step keeps it: from a path that waits with
the directories listed so far, to the visit and to the paths that wait after it. -/
lemma forall_visits {all : List Visit} {waits : List Path → Path → Prop} {holds : Visit → Prop}
    (grow : ∀ {visited place path}, waits visited path → waits (place :: visited) path)
    (step : ∀ {visited directory place}, ⟨directory, place⟩ ∈ all → waits visited directory →
      tree.locate directory = .ok place → place ∉ visited → tree.isDirectoryAt place = true →
      holds ⟨directory, place⟩ ∧
        ∀ path ∈ directoriesOf (Visit.findings tree query ⟨directory, place⟩),
          waits (place :: visited) path)
    (within : visits tree query visited queue ⊆ all) (start : ∀ path ∈ queue, waits visited path) :
    ∀ visit ∈ visits tree query visited queue, holds visit := by
  fun_induction visits tree query visited queue with
  | case1 => simp
  | case2 visited first queue error lost ih =>
    exact ih within fun path mem => start path (List.mem_cons_of_mem _ mem)
  | case3 visited first queue place located old ih =>
    exact ih within fun path mem => start path (List.mem_cons_of_mem _ mem)
  | case4 visited first queue place located new isDirectory visit ih =>
    obtain ⟨first_mem, within⟩ := List.cons_subset.mp within
    obtain ⟨first_waits, start⟩ := List.forall_mem_cons.mp start
    obtain ⟨first_holds, below⟩ :=
      step first_mem first_waits located (by simpa using new) isDirectory
    refine List.forall_mem_cons.mpr ⟨first_holds, ih within fun path mem => ?_⟩
    obtain waiting | added := List.mem_append.mp mem
    · exact grow (start path waiting)
    · exact below path added
  | case5 visited first queue place located new isFile ih =>
    exact ih within fun path mem => start path (List.mem_cons_of_mem _ mem)

end Order

section Reports

/-- The test file that a finding reports. -/
def Finding.file? : Finding → Option Path
  | .event (.found file) => some file
  | _ => none

/-- None of the findings ends a walk. -/
def AreClean (findings : List Finding) : Prop :=
  ∀ fault, .event (.fault fault) ∉ findings

/-- The files of a walk without faults are those of its findings. -/
lemma filesOf_eventsOf {findings : List Finding} (clean : AreClean findings) :
    filesOf (eventsOf findings) = findings.filterMap Finding.file? := by
  induction findings with
  | nil => rfl
  | cons finding rest ih =>
    have ih := ih fun fault mem => clean fault (List.mem_cons_of_mem _ mem)
    match finding with
    | .descend _ => exact ih
    | .nothing => exact ih
    | .event (.found file) => exact congrArg (file :: ·) ih
    | .event (.notice _) => exact ih
    | .event (.fault fault) => exact absurd List.mem_cons_self (clean fault)

/-- What can be inspected without a fault leaves none in the walk. -/
lemma fault_notMem_eventsOf {findings : List Finding} (clean : AreClean findings) (fault : Fault) :
    .fault fault ∉ eventsOf findings := by
  induction findings with
  | nil => simp [eventsOf]
  | cons finding rest ih =>
    have ih := ih fun fault mem => clean fault (List.mem_cons_of_mem _ mem)
    match finding with
    | .descend _ => exact ih
    | .nothing => exact ih
    | .event (.found file) => simpa [eventsOf] using ih
    | .event (.notice _) => simpa [eventsOf] using ih
    | .event (.fault fault) => exact absurd List.mem_cons_self (clean fault)

/-- What can be inspected without a fault does not end the walk. -/
lemma endsWalk_eventsOf {findings : List Finding} (clean : AreClean findings) :
    endsWalk (eventsOf findings) = false := by
  refine List.any_eq_false.mpr fun event mem => ?_
  cases event with
  | fault fault => exact absurd mem (fault_notMem_eventsOf clean fault)
  | _ => simp

section Whole

variable (whole : query.suffixes.broken = false)
include whole

/-- A list of texts is gone through to its end. -/
lemma hasSuffix_eq :
    hasSuffix name query.suffixes = .ok (query.suffixes.texts.any (Text.endsWith name)) := by
  rw [hasSuffix, Listing.any, whole]
  split
  next some => rw [some]
  next none => simp [none]

/-- No entry ends the walk. -/
lemma areClean_findings (visit : Visit) : AreClean (visit.findings tree query) := by
  intro fault mem
  obtain ⟨name, _, finding⟩ := List.mem_map.mp mem
  rw [inspect] at finding
  split at finding
  · split at finding <;> cases finding
  · rw [hasSuffix_eq whole] at finding
    cases finding
  · cases finding
  · rw [hasSuffix_eq whole] at finding
    generalize query.suffixes.texts.any (Text.endsWith name) = matched at finding
    cases matched <;> cases finding

/-- The test files of a visit are those among its findings. -/
lemma Visit.files_eq (visit : Visit) :
    visit.files tree query = (visit.findings tree query).filterMap Finding.file? :=
  filesOf_eventsOf (areClean_findings whole visit)

/-- The test files of a walk are those of the directories that it lists. -/
lemma filesOf_walk : filesOf (walk tree query visited queue)
    = (visits tree query visited queue).flatMap (·.files tree query) := by
  fun_induction walk tree query visited queue with
  | case1 => simp [visits, filesOf]
  | case2 visited directory queue text error lost ih =>
    rw [visits_lost lost]
    exact ih
  | case3 visited directory queue text place located old ih =>
    rw [visits_old located (by simpa using old)]
    exact ih
  | case4 visited directory queue place located new isDirectory findings events ends =>
    cases ends.symm.trans (endsWalk_eventsOf (areClean_findings whole ⟨directory, place⟩))
  | case5 visited directory queue place located new isDirectory findings events ends ih =>
    rw [visits_new located (by simpa using new) isDirectory, List.flatMap_cons, filesOf,
      List.filterMap_append]
    exact congrArg (filesOf events ++ ·) ih
  | case6 visited directory queue text place located new isFile ih =>
    rw [visits_file located (by simpa using isFile)]
    exact ih

/-- No walk ends early. -/
lemma fault_notMem_walk (fault : Fault) : .fault fault ∉ walk tree query visited queue := by
  fun_induction walk tree query visited queue with
  | case1 => simp
  | case2 visited directory queue text error lost ih => simpa using ih
  | case3 visited directory queue text place located old ih => simpa using ih
  | case4 visited directory queue place located new isDirectory findings events ends =>
    cases ends.symm.trans (endsWalk_eventsOf (areClean_findings whole ⟨directory, place⟩))
  | case5 visited directory queue place located new isDirectory findings events ends ih =>
    have clean : .fault fault ∉ events :=
      fault_notMem_eventsOf (areClean_findings whole ⟨directory, place⟩) fault
    exact List.mem_append.not.mpr (not_or.mpr ⟨clean, ih⟩)
  | case6 visited directory queue text place located new isFile ih => simpa using ih

/-- The search for test files comes to an end, with the test files of the directories that its walk
lists. -/
theorem testFiles_eq (disk : Disk) (root : String) :
    (testFiles disk root query).1 = .ok
      ((visits disk.tree query [] [Path.ofText disk.cwd root]).flatMap (·.files disk.tree query)) := by
  have noFault : faultOf (walk disk.tree query [] [Path.ofText disk.cwd root]) = none := by
    refine List.findSome?_eq_none_iff.mpr fun event mem => ?_
    cases event with
    | fault fault => exact absurd mem (fault_notMem_walk whole fault)
    | _ => rfl
  rw [testFiles]
  simp only [noFault, filesOf_walk whole]

/-- A walk that its first directory leads nowhere else finds the test files of this directory. -/
lemma testFiles_flat {disk : Disk} {root : String} {directory place : Path}
    {findings : List Finding} (start : Path.ofText disk.cwd root = directory)
    (located : disk.tree.locate directory = .ok place)
    (isDirectory : disk.tree.isDirectoryAt place = true)
    (found : Visit.findings disk.tree query ⟨directory, place⟩ = findings)
    (flat : directoriesOf findings = []) :
    (testFiles disk root query).1 = .ok (findings.filterMap Finding.file?) := by
  rw [testFiles_eq whole, start, visits_new located List.not_mem_nil isDirectory, found, flat,
    List.append_nil, visits, List.flatMap_singleton, Visit.files_eq whole, found]

end Whole

end Reports

/-- What test files are looked for by default. -/
def defaultQuery : Query := ⟨.ofTexts defaultSuffixes, defaultExclusions⟩

end ExportCover.Discovery
