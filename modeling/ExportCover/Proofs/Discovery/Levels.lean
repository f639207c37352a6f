import ExportCover.Proofs.Command.Selection
import ExportCover.Proofs.Discovery.Reach

/-!
# The order of a walk

A walk goes level by level: of the paths that wait, the first ones have one length and the others
are one name longer (`IsLevelled`), which every step keeps. So directories are listed in the order
of the lengths of their paths (`levelled_visits`). The files of a directory are reported one after
the other in the order of their names.
-/

namespace ExportCover.Discovery

open FileTree

/-- Paths of one length, and behind them paths that are one name longer. -/
def IsLevelled (level : Nat) (queue : List Path) : Prop :=
  ∃ near far, queue = near ++ far ∧ (∀ path ∈ near, path.length = level) ∧
    ∀ path ∈ far, path.length = level + 1

/-- The last name of a path. -/
def lastName (path : Path) : String :=
  path.getLast?.getD ""

/-- Files in the order in which a walk over directories reports them. -/
structure InWalkOrder (files : List Path) : Prop where
  /-- The directories of later files are not above those of earlier ones. -/
  levels : files.Pairwise fun a b => a.dropLast.length ≤ b.dropLast.length
  /-- No file of another directory stands between two files of one. -/
  together : ∀ {a b c}, [a, b, c].Sublist files → a.dropLast = c.dropLast → b.dropLast = a.dropLast
  /-- The files of a directory are sorted by their names. -/
  names : files.Pairwise fun a b => a.dropLast = b.dropLast → lastName a < lastName b

variable {tree : FileTree} {query : Query} {visited queue : List Path} {directory : Path}
  {level : Nat} {visit : Visit}

section Levels

/-- What is left of a levelled queue is levelled. -/
lemma IsLevelled.tail (levelled : IsLevelled level (directory :: queue)) :
    IsLevelled level queue := by
  obtain ⟨near, far, joined, short, long⟩ := levelled
  cases near with
  | nil =>
    obtain rfl : directory :: queue = far := joined
    exact ⟨[], queue, rfl, short, fun path mem => long path (List.mem_cons_of_mem _ mem)⟩
  | cons first near =>
    obtain ⟨rfl, rfl⟩ := List.cons.inj joined
    exact ⟨near, far, rfl, fun path mem => short path (List.mem_cons_of_mem _ mem), long⟩

/-- After the first path has been taken, paths that are one name longer may wait behind the
others. -/
lemma IsLevelled.step (levelled : IsLevelled level (directory :: queue)) {below : List Path}
    (longer : ∀ path ∈ below, path.length = directory.length + 1) :
    level ≤ directory.length ∧ IsLevelled directory.length (queue ++ below) := by
  obtain ⟨near, far, joined, short, long⟩ := levelled
  cases near with
  | nil =>
    -- The first path is one of the longer ones, and so are all others.
    obtain rfl : directory :: queue = far := joined
    obtain ⟨first, others⟩ := List.forall_mem_cons.mp long
    refine ⟨by omega, queue, below, rfl, ?_, longer⟩
    exact fun path mem => (others path mem).trans first.symm
  | cons first near =>
    obtain ⟨rfl, rfl⟩ := List.cons.inj joined
    obtain ⟨same, others⟩ := List.forall_mem_cons.mp short
    refine ⟨same.ge, near, far ++ below, List.append_assoc _ _ _, ?_, ?_⟩
    · exact fun path mem => (others path mem).trans same.symm
    · rw [List.forall_mem_append, same]
      exact ⟨long, same ▸ longer⟩

/-- The directories found in a directory are one level below it. -/
lemma length_of_descend {path : Path}
    (descends : path ∈ directoriesOf (visit.findings tree query)) :
    path.length = visit.taken.length + 1 := by
  obtain ⟨name, -, -, -, rfl⟩ := mem_directoriesOf_findings.mp descends
  rw [List.length_append, List.length_singleton]

/-- A run: directories are listed in the order of the lengths of the paths that lead to them. -/
lemma levelled_visits (levelled : IsLevelled level queue) :
    (∀ visit ∈ visits tree query visited queue, level ≤ visit.taken.length) ∧
      (visits tree query visited queue).Pairwise fun a b => a.taken.length ≤ b.taken.length := by
  fun_induction visits tree query visited queue generalizing level with
  | case1 => simp
  | case2 visited first queue error lost ih => exact ih levelled.tail
  | case3 visited first queue place located old ih => exact ih levelled.tail
  | case4 visited first queue place located new isDirectory visit =>
    rename_i ih
    have longer : ∀ path ∈ directoriesOf (visit.findings tree query),
        path.length = first.length + 1 := fun path descends => length_of_descend descends
    obtain ⟨reached, levelled⟩ := levelled.step longer
    obtain ⟨later, sorted⟩ := ih levelled
    refine ⟨List.forall_mem_cons.mpr ⟨reached, fun other mem => ?_⟩, ?_⟩
    · exact reached.trans (later other mem)
    · exact List.pairwise_cons.mpr ⟨later, sorted⟩
  | case5 visited first queue place located new isFile ih => exact ih levelled.tail

end Levels

section Blocks

variable {listed : List Visit} {files : Visit → List Path}

/-- If visits of different directories only report files of their directories, the files of a
directory stand together. -/
lemma together_flatMap
    (inside : ∀ visit ∈ listed, ∀ file ∈ files visit, file.dropLast = visit.place)
    (apart : (listed.map (·.place)).Nodup) {a b c : Path}
    (inOrder : [a, b, c].Sublist (listed.flatMap files)) (same : a.dropLast = c.dropLast) :
    b.dropLast = a.dropLast := by
  induction listed with
  | nil => cases inOrder
  | cons visit rest ih =>
    obtain ⟨here, insideRest⟩ := List.forall_mem_cons.mp inside
    obtain ⟨new, apartRest⟩ := List.nodup_cons.mp apart
    -- A file of this directory cannot come again in a later one.
    have later {file : Path} (mem : file ∈ rest.flatMap files) : file.dropLast ≠ visit.place := by
      obtain ⟨other, otherMem, found⟩ := List.mem_flatMap.mp mem
      rw [insideRest other otherMem file found]
      exact fun e => new (List.mem_map.mpr ⟨other, otherMem, e⟩)
    rw [List.flatMap_cons, List.sublist_append_iff] at inOrder
    obtain ⟨first, second, split, now, after⟩ := inOrder
    match first with
    | [] =>
      exact ih insideRest apartRest (split ▸ after)
    | [x] =>
      obtain ⟨rfl, rfl⟩ := List.cons.inj split
      have aHere := here a (now.subset List.mem_cons_self)
      exact absurd (same.symm.trans aHere) (later (after.subset (by simp)))
    | x :: y :: more =>
      obtain ⟨rfl, rfl, _⟩ : a = x ∧ b = y ∧ [c] = more ++ second := by simpa using split
      rw [here a (now.subset (by simp)), here b (now.subset (by simp))]

/-- Files are in the order of a walk if they come from visits of different directories, which are
listed by the lengths of their paths, with the files of each directory sorted by their names. -/
lemma inWalkOrder_flatMap
    (inside : ∀ visit ∈ listed, ∀ file ∈ files visit, file.dropLast = visit.place)
    (apart : (listed.map (·.place)).Nodup)
    (levels : listed.Pairwise fun a b => a.place.length ≤ b.place.length)
    (names : ∀ visit ∈ listed, (files visit).Pairwise fun a b => lastName a < lastName b) :
    InWalkOrder (listed.flatMap files) where
  levels := by
    refine List.pairwise_flatMap.mpr ⟨fun visit mem => ?_, levels.imp_of_mem ?_⟩
    · refine List.pairwise_of_forall_mem_list fun a memA b memB => ?_
      rw [inside visit mem a memA, inside visit mem b memB]
    · intro visit other mem mem' le a memA b memB
      rwa [inside visit mem a memA, inside other mem' b memB]
  together := fun inOrder same => together_flatMap inside apart inOrder same
  names := by
    refine List.pairwise_flatMap.mpr ⟨fun visit mem => ?_, ?_⟩
    · refine (names visit mem).imp ?_
      exact fun less _ => less
    · refine (List.pairwise_map.mp apart).imp_of_mem ?_
      intro visit other mem mem' ne a memA b memB
      rw [inside visit mem a memA, inside other mem' b memB]
      exact fun same => absurd same ne

end Blocks

/-- The names in a directory are strictly sorted. -/
lemma sorted_namesIn (wf : tree.WellFormed) : (tree.namesIn directory).Pairwise (· < ·) :=
  Command.pairwise_lt_mergeSort ((List.mergeSort_perm _ _).nodup_iff.mp wf.nodup_namesIn)

section Visits

variable {start home : Path} {all : List Visit} {names : List String} {trail : List Path}
  (proper : tree.IsProper) (whole : query.suffixes.broken = false) (plain : "." ∉ start)
  (regular : HasRegularFiles tree query.suffixes.texts)
include proper whole plain regular

/-- A visit reports the files of its directory by their names. -/
lemma sorted_files (reached : visit.IsReached tree query start home all names trail) :
    (visit.files tree query).Pairwise fun a b => lastName a < lastName b := by
  refine pairwise_files proper whole plain reached regular ?_
  refine (sorted_namesIn proper.wellFormed).imp fun {a b} less => ?_
  rwa [lastName, lastName, List.getLast?_concat, List.getLast?_concat]

/-- The files of a walk are in its order if the paths of the walk are where they lead. -/
lemma inWalkOrder_reports (located : tree.locate start = .ok home)
    (direct : ∀ visit ∈ visits tree query [] [start], visit.place = visit.taken) :
    InWalkOrder ((visits tree query [] [start]).flatMap (·.files tree query)) := by
  have levelled : IsLevelled start.length [start] := ⟨[start], [], rfl, by simp, by simp⟩
  refine inWalkOrder_flatMap (fun visit mem file found => ?_) nodup_visits.1 ?_ fun visit mem => ?_
  · obtain ⟨_, _, reached⟩ := exists_isReached located visit mem
    obtain ⟨_, _, _, _, rfl⟩ := (mem_files_iff proper whole plain reached regular).mp found
    exact List.dropLast_concat
  · refine (levelled_visits levelled).2.imp_of_mem fun mem mem' le => ?_
    rwa [direct _ mem, direct _ mem']
  · obtain ⟨_, _, reached⟩ := exists_isReached located visit mem
    exact sorted_files proper whole plain regular reached

end Visits

end ExportCover.Discovery
