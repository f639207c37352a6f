import Mathlib.Data.List.Find
import ExportCover.Proofs.FileTree.Atomicity

/-!
# Reading a file that was replaced

After a replacement the folder of the file is found as before unless the way to it leads through the
entry that was replaced, a link (`Replaces.locate_eq_ok_iff`), so that the new content is read back
except in this case (`Replaces.read_eq_ok_iff`). The error of a call is the error of the whole
(`exec_replaceFile_eq_error_iff`). Together with what the calls leave behind this says what writing
a file does for every file tree, target and refused call (`replaceFile_all_or_nothing`).
-/

namespace ExportCover

namespace FileTree

variable {tree made after : FileTree} {above names path : List String} {directory place : Path}
  {name : String} {content : Bytes} {n : Nat}

/-- Nothing is listed below what is no directory. -/
lemma WellFormed.eq_of_prefix (wf : tree.WellFormed) (leaf : tree.entry? place ≠ some .directory)
    {listed : Path × Entry} (mem : listed ∈ tree.entries) (below : place <+: listed.1) :
    listed.1 = place := by
  obtain ⟨rest, same⟩ := below
  obtain rfl | ⟨names, last, rfl⟩ := rest.eq_nil_or_concat'
  · rw [← same, List.append_nil]
  · obtain ⟨entry, found⟩ := exists_entry mem (wf.2 listed mem).1
    rw [← same, ← List.append_assoc] at found
    exact absurd (wf.entry?_above found) leaf

/-- What is no directory is removed alone. -/
lemma WellFormed.entry?_prune (wf : tree.WellFormed) (leaf : tree.entry? place ≠ some .directory)
    (other : Path) : FileTree.entry? (tree.prune place) other
      = if other = place then none else tree.entry? other := by
  have ne_root : place ≠ [] := by
    rintro rfl
    exact leaf rfl
  by_cases root : other = []
  · subst root
    rw [if_neg ne_root.symm]
    rfl
  rw [entry?_below root, entry?_below root, prune, List.find?_filter]
  split
  next same =>
    subst same
    refine Option.map_eq_none_iff.mpr (List.find?_eq_none.mpr fun listed _ hit => ?_)
    obtain ⟨apart, here⟩ : other.isPrefixOf listed.1 = false ∧ listed.1 = other := by
      simpa using hit
    have within : other.isPrefixOf listed.1 = true :=
      List.isPrefixOf_iff_prefix.mpr (here ▸ List.prefix_rfl)
    cases apart.symm.trans within
  next ne =>
    congr 1
    refine List.find?_congr fun listed mem => ?_
    -- Nothing stands below the place, so that nothing else goes with it.
    have apart (here : listed.1 = other) : place.isPrefixOf listed.1 = false :=
      Bool.eq_false_iff.mpr fun below =>
        ne (here.symm.trans (wf.eq_of_prefix leaf mem (List.isPrefixOf_iff_prefix.mp below)))
    rw [Bool.eq_iff_iff]
    simpa using apart

namespace Replaces

variable (replaces : made.Replaces after above name directory content) (wf : made.WellFormed)
  {entry : Entry}
include replaces

/-- The new file stands at its place. -/
lemma entry?_place : after.entry? (directory ++ [name]) = some (.file content) :=
  (replaces.entry? _).trans (if_pos rfl)

/-- The directory of the new file is still there. -/
lemma entry?_directory : after.entry? directory = some .directory := by
  rw [replaces.entry?, if_neg (by simp), replaces.isDirectory]

/-- What stands elsewhere is there before and after. -/
lemma kept (found : made.entry? path = some entry) (ne : path ≠ directory ++ [name]) :
    after.entry? path = some entry := by
  rw [replaces.entry?, if_neg ne, found]

include wf

/-- What is left after the place is cleared stands there before and after. -/
lemma kept_of_prune
    (found : FileTree.entry? (made.prune (directory ++ [name])) path = some entry) :
    made.entry? path = some entry ∧ after.entry? path = some entry := by
  rw [wf.entry?_prune replaces.leaf] at found
  split at found
  next => cases found
  next ne => exact ⟨found, replaces.kept found ne⟩

/-- Only a file is new. -/
lemma entry?_prune (found : after.entry? path = some entry)
    (noFile : ∀ content, entry ≠ .file content) :
    FileTree.entry? (made.prune (directory ++ [name])) path = some entry := by
  rw [replaces.entry?] at found
  rw [wf.entry?_prune replaces.leaf]
  split at found
  next =>
    cases found
    exact absurd rfl (noFile content)
  next ne => rwa [if_neg ne]

/-- Names lead from the root to a directory only where they do without the replaced entry. -/
lemma leads_prune (leads : after.Leads n [] names place)
    (isDirectory : after.entry? place = some .directory) :
    FileTree.Leads (made.prune (directory ++ [name])) n [] names place :=
  leads.to_directory isDirectory (replaces.entry?_prune wf)

/-- The folder is found afterwards exactly if it is found without the entry that is replaced. -/
lemma locate_eq_ok_iff : after.locate above = .ok directory ↔
    (made.prune (directory ++ [name])).isDirectory above := by
  rw [isDirectory_iff]
  constructor
  · intro located
    obtain ⟨n, le, leads⟩ := FileTree.locate_eq_ok_iff.mp located
    exact ⟨directory, FileTree.locate_eq_ok_iff.mpr
      ⟨n, le, replaces.leads_prune wf leads replaces.entry?_directory⟩,
      replaces.entry?_prune wf replaces.entry?_directory (by simp)⟩
  · rintro ⟨mid, located, isDirectory⟩
    obtain ⟨n, le, leads⟩ := FileTree.locate_eq_ok_iff.mp located
    obtain ⟨_, _, leads'⟩ := FileTree.locate_eq_ok_iff.mp replaces.located
    obtain ⟨_, rfl⟩ := (leads.mono (replaces.kept_of_prune wf · |>.1)).unique leads'
    exact FileTree.locate_eq_ok_iff.mpr
      ⟨n, le, leads.mono (replaces.kept_of_prune wf · |>.2)⟩

/-- The new content is read back exactly if the folder of the file is found without the entry that
is replaced. -/
theorem read_eq_ok_iff : after.read (above ++ [name]) = .ok content ↔
    (made.prune (directory ++ [name])).isDirectory above := by
  rw [← replaces.locate_eq_ok_iff wf, FileTree.read_eq_ok_iff]
  constructor
  · rintro ⟨place, located, isFile⟩
    obtain ⟨_, le, leads⟩ := FileTree.locate_eq_ok_iff.mp located
    obtain ⟨n, m, mid, rfl, leads, last⟩ := leads.split
    -- The last name is looked up in a directory.
    have isDirectory : after.entry? mid = some .directory := by
      cases last with
      | up => exact absurd rfl replaces.ne_up
      | stay => exact absurd rfl replaces.step.ne_here
      | file _ _ found => exact replaces.proper.wellFormed.entry?_parent found
      | directory _ _ found => exact replaces.proper.wellFormed.entry?_parent found
      | link _ _ found => exact replaces.proper.wellFormed.entry?_parent found
    obtain ⟨_, _, leads'⟩ := FileTree.locate_eq_ok_iff.mp replaces.located
    have before := (replaces.leads_prune wf leads isDirectory).mono
      (replaces.kept_of_prune wf · |>.1)
    obtain ⟨_, rfl⟩ := before.unique leads'
    exact FileTree.locate_eq_ok_iff.mpr ⟨n, by omega, leads⟩
  · intro located
    exact ⟨_, locate_last_direct located replaces.entry?_directory
      (.file replaces.ne_up replaces.step.ne_here replaces.entry?_place), replaces.entry?_place⟩

/-- The new content is read back unless it stands in the place of a link. -/
lemma read_eq_ok (noLink : ∀ target, made.entry? (directory ++ [name]) ≠ some (.link target)) :
    after.read (above ++ [name]) = .ok content := by
  rw [replaces.read_eq_ok_iff wf, ← replaces.locate_eq_ok_iff wf]
  obtain ⟨n, le, leads⟩ := FileTree.locate_eq_ok_iff.mp replaces.located
  refine FileTree.locate_eq_ok_iff.mpr ⟨n, le, leads.to_directory replaces.isDirectory ?_⟩
  intro path entry found noFile
  refine replaces.kept found ?_
  rintro rfl
  cases entry with
  | file content => exact noFile content rfl
  | directory => exact replaces.leaf found
  | link target => exact noLink target found

end Replaces

end FileTree

namespace Disk

variable {disk : Disk} {text name : String} {above : List String}

/-- The names of a path text can be spelled. -/
lemma isStep_of_mem_names (home : Path.IsNormal disk.cwd) :
    ∀ name ∈ disk.names text, Path.IsStep name := by
  intro name mem
  rw [names] at mem
  split at mem
  next => exact Path.isStep_of_mem_names name mem
  next =>
    obtain mem | mem := List.mem_append.mp mem
    · exact (home name mem).1
    · exact Path.isStep_of_mem_names name mem

/-- The names of a target can be spelled, unless the last one is `.`, and are the names of its
text. -/
lemma targetNames_cases (home : Path.IsNormal disk.cwd) (text : String) :
    disk.targetNames text = disk.cwd ++ ["."] ∨ disk.targetNames text = disk.names text ∧
      ∀ name ∈ disk.names text, Path.IsStep name := by
  rw [targetNames]
  split
  next => exact .inl rfl
  next => exact .inr ⟨rfl, isStep_of_mem_names home⟩

/-- Above a target there are names that can be spelled. -/
lemma isStep_above_target (home : Path.IsNormal disk.cwd) (text : String) :
    ∀ name ∈ (disk.targetNames text).dropLast, Path.IsStep name := by
  intro name mem
  obtain here | ⟨same, steps⟩ := targetNames_cases home text
  · rw [here, List.dropLast_concat] at mem
    exact (home name mem).1
  · rw [same] at mem
    exact steps name (List.dropLast_subset _ mem)

/-- The names of a target can be spelled, but for a last `.`. -/
lemma isStep_of_mem_targetNames (home : Path.IsNormal disk.cwd) (text : String) :
    ∀ name ∈ disk.targetNames text, name ≠ "." → Path.IsStep name := by
  intro name mem ne_here
  obtain here | ⟨same, steps⟩ := targetNames_cases home text
  · rw [here] at mem
    obtain mem | last := List.mem_append.mp mem
    · exact (home name mem).1
    · exact absurd (List.mem_singleton.mp last) ne_here
  · rw [same] at mem
    exact steps name mem

/-- The file at a target is the one that the text names. -/
lemma names_of_targetNames (home : Path.IsNormal disk.cwd)
    (target : disk.targetNames text = above ++ [name]) (ne_here : name ≠ ".") :
    disk.names text = above ++ [name] := by
  obtain here | ⟨same, _⟩ := targetNames_cases home text
  · rw [target] at here
    obtain ⟨_, last⟩ := List.append_inj' here rfl
    exact absurd (List.singleton_inj.mp last) ne_here
  · rw [← same, target]

/-- A path text is read as its names are. -/
lemma read_eq_ok_iff {content : Bytes} :
    disk.read text = .ok content ↔ disk.tree.read (disk.names text) = .ok content := by
  rw [read]
  split <;> simp_all

end Disk

namespace Attempt

/-- One of the steps by which a file is replaced fails with an error, after those before it. -/
inductive Breaks (newName : FileTree → Path → String) (path : List String) (content : Bytes)
    (system : System) (error : SystemError) : Prop where
  | folders (failed : ((makeDirectories path.dropLast).exec system).1 = .error error)
  | opening {made : System} (makes : (makeDirectories path.dropLast).exec system = (.ok (), made))
    (failed : ((openTemporary newName (Path.follow [] path.dropLast)).exec made).1 = .error error)
  | filling {made opened : System} {place : Path}
    (makes : (makeDirectories path.dropLast).exec system = (.ok (), made))
    (opens : (openTemporary newName (Path.follow [] path.dropLast)).exec made = (.ok place, opened))
    (failed : ((fill place content).exec opened).1 = .error error)
  | moving {made opened filled : System} {place : Path}
    (makes : (makeDirectories path.dropLast).exec system = (.ok (), made))
    (opens : (openTemporary newName (Path.follow [] path.dropLast)).exec made = (.ok place, opened))
    (fills : (fill place content).exec opened = (.ok (), filled))
    (failed : ((moveOver place path).exec filled).1 = .error error)

variable {newName : FileTree → Path → String} {path : List String} {content : Bytes}

/-- The error of a step is the error of the whole. -/
lemma exec_replaceFile_eq_error_iff {system : System} {error : SystemError} :
    ((replaceFile newName path content).exec system).1 = .error error ↔
      Breaks newName path content system error := by
  simp only [replaceFile, exec_bind_eq_error_iff, exec_discarding]
  constructor
  · rintro (failed | ⟨_, made, makes, failed | ⟨place, opened, opens,
      failed | ⟨_, filled, fills, failed⟩⟩⟩)
    · exact .folders failed
    · exact .opening makes failed
    · exact .filling makes opens failed
    · exact .moving makes opens fills failed
  · rintro (failed | ⟨makes, failed⟩ | ⟨makes, opens, failed⟩ | ⟨makes, opens, fills, failed⟩)
    · exact .inl failed
    · exact .inr ⟨_, _, makes, .inl failed⟩
    · exact .inr ⟨_, _, makes, .inr ⟨_, _, opens, .inl failed⟩⟩
    · exact .inr ⟨_, _, makes, .inr ⟨_, _, opens, .inr ⟨_, _, fills, failed⟩⟩⟩

/-- Writing a file is all or nothing, whatever the file tree is like and whatever the system
refuses. The error of a step is the error of the whole, and then nothing is new but directories on
the way to the file. Otherwise the file has the new content, which is read back unless the way to
its folder leads through the link that it replaces, and nothing else is new but those directories.
-/
theorem replaceFile_all_or_nothing {disk : Disk} (proper : disk.tree.IsProper)
    (home : Path.IsNormal disk.cwd)
    (fresh : ∀ tree directory, FileTree.entry? tree (directory ++ [newName tree directory]) = none)
    (text content : String) (answers : List (Option Refusal)) :
    let path := disk.targetNames text
    let bytes := Text.encode content
    let run := (replaceFile newName path bytes).exec ⟨disk.tree, answers⟩
    (∀ error, run.1 = .error error ↔ Breaks newName path bytes ⟨disk.tree, answers⟩ error) ∧
    (∀ error, run.1 = .error error → disk.tree.GainsFolders run.2.tree path.dropLast) ∧
    (run.1 = .ok () → ∃ made above name directory, path = above ++ [name] ∧
      disk.tree.GainsFolders made above ∧
      made.Replaces run.2.tree above name directory bytes ∧
      (Disk.read ⟨run.2.tree, disk.cwd⟩ text = .ok bytes ↔
        (made.prune (directory ++ [name])).isDirectory above) ∧
      ((∀ target, disk.tree.entry? (directory ++ [name]) ≠ some (.link target)) →
        Disk.read ⟨run.2.tree, disk.cwd⟩ text = .ok bytes)) ∧
    (newName = FileTree.freshName → answers = [] →
      run = ((disk.tree.replaceFile path bytes).outcome,
        ⟨(disk.tree.replaceFile path bytes).tree, []⟩)) := by
  intro path bytes run
  have leaves : Leaves (replaceFile newName path bytes) disk.tree _ _ :=
    leaves_replaceFile fresh proper (Disk.isStep_above_target home text)
      (Disk.isStep_of_mem_targetNames home text)
  refine ⟨fun error => exec_replaceFile_eq_error_iff, fun error failed => leaves.of_error failed,
    fun done => ?_, ?_⟩
  · obtain ⟨made, above, name, directory, target, gains, replaces⟩ := leaves.of_ok done
    have wf := gains.proper.wellFormed
    have read : Disk.read ⟨run.2.tree, disk.cwd⟩ text = .ok bytes ↔
        run.2.tree.read (above ++ [name]) = .ok bytes := by
      rw [Disk.read_eq_ok_iff, ← Disk.names_of_targetNames home target replaces.step.ne_here]
      rfl
    refine ⟨made, above, name, directory, target, gains, replaces,
      read.trans (replaces.read_eq_ok_iff wf), fun noLink => ?_⟩
    -- A link in the place of the file would have been there before, since only folders are new.
    refine read.mpr (replaces.read_eq_ok wf fun target isLink => ?_)
    obtain old | ⟨isFolder, _⟩ := gains.gained isLink
    · exact noLink target old
    · cases isFolder
  · rintro rfl rfl
    exact exec_replaceFile_tried disk.tree path bytes

/-- A disk with a file in its working directory. -/
def keptDisk : Disk := ⟨⟨[(["d"], .directory), (["d", "c"], .file (Text.encode "old"))]⟩, ["d"]⟩

/-- The calls that write to a new folder of that disk. -/
def writeNew (answers : List (Option Refusal)) : Except SystemError Unit × System :=
  (replaceFile FileTree.freshName (keptDisk.targetNames "e/f") (Text.encode "new")).exec
    ⟨keptDisk.tree, answers⟩

/-- The last of four calls is refused, and the new folder stays. Where none is, the file is read
back. -/
theorem replaceFile_all_or_nothing_refused :
    keptDisk.tree.IsProper ∧ Path.IsNormal keptDisk.cwd ∧
    (∀ tree directory,
      FileTree.entry? tree (directory ++ [FileTree.freshName tree directory]) = none) ∧
    (writeNew [none, none, none, some ⟨.busy, 0⟩]).1 = .error .busy ∧
    keptDisk.tree.GainsFolders (writeNew [none, none, none, some ⟨.busy, 0⟩]).2.tree ["d", "e"] ∧
    (writeNew []).1 = .ok () ∧
    Disk.read ⟨(writeNew []).2.tree, keptDisk.cwd⟩ "e/f" = .ok (Text.encode "new") := by
  have proper : keptDisk.tree.IsProper := by decide +kernel
  have home : Path.IsNormal keptDisk.cwd := by decide +kernel
  have path : (keptDisk.targetNames "e/f").dropLast = ["d", "e"] := by decide +kernel
  have refused : (writeNew [none, none, none, some ⟨.busy, 0⟩]).1 = .error .busy := by
    decide +kernel
  have done : (writeNew []).1 = .ok () := by decide +kernel
  have noLink (place : Path) (target : String) :
      keptDisk.tree.entry? place ≠ some (.link target) := by
    intro found
    have ne_root : place ≠ [] := by
      rintro rfl
      cases found
    simpa [keptDisk] using FileTree.mem_entries ne_root found
  refine ⟨proper, home, FileTree.entry?_freshName, refused, ?_, done, ?_⟩
  · rw [← path]
    exact (replaceFile_all_or_nothing proper home FileTree.entry?_freshName "e/f" "new" _).2.1
      .busy refused
  · obtain ⟨_, _, _, _, _, _, _, _, read⟩ :=
      (replaceFile_all_or_nothing proper home FileTree.entry?_freshName "e/f" "new" []).2.2.1 done
    exact read (noLink _)

/-- A file that takes the place of a link on its own way is not read back. -/
theorem replaceFile_over_folder :
    let disk : Disk := ⟨⟨[(["l"], .link ".")]⟩, []⟩
    let run := (replaceFile FileTree.freshName (disk.targetNames "l/l") (Text.encode "x")).exec
      ⟨disk.tree, []⟩
    disk.tree.IsProper ∧ Path.IsNormal disk.cwd ∧ run.1 = .ok () ∧
      Disk.read ⟨run.2.tree, disk.cwd⟩ "l/l" = .error (.system .notDirectory "l/l") := by
  decide +kernel

end Attempt

end ExportCover
