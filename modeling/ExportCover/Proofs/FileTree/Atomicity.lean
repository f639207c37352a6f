import ExportCover.Proofs.FileTree.Attempt
import ExportCover.Proofs.Outcome

/-!
# A file is replaced as a whole or not at all

What each call of a replacement leaves behind, wherever it is cut off. Making the directories adds
directories on the way to the file (`GainsFolders`), whatever happens; from then on there is a
temporary file that can be removed without a trace; and the last call puts the whole content in the
place of the file (`Replaces`). Along the calls this gives `Attempt.leaves_replaceFile`: a
replacement that fails leaves nothing but directories on the way.
-/

namespace ExportCover

namespace FileTree

variable {tree made after : FileTree} {above names path : List String} {directory place : Path}
  {name : String} {entry : Entry}

section Steps

/-- A path leads to a directory if it leads to a place where one stands. -/
lemma isDirectory_iff : tree.isDirectory path = true ↔
    ∃ directory, tree.locate path = .ok directory ∧ tree.entry? directory = some .directory := by
  rw [← status_eq_ok_iff, isDirectory]
  split
  next found => simp [found]
  next other => simpa using other

/-- An entry is added in a directory, where nothing stands. -/
lemma exists_of_add (added : tree.add path entry = .ok made) :
    ∃ above name directory, path = above ++ [name] ∧ tree.locate above = .ok directory ∧
      tree.entry? directory = some .directory ∧ name ≠ ".." ∧
      tree.entry? (directory ++ [name]) = none ∧ made = tree.put (directory ++ [name]) entry := by
  obtain rfl | ⟨above, name, rfl⟩ := path.eq_nil_or_concat'
  · cases added
  · rw [add, newPlace, List.getLast?_concat, List.dropLast_concat] at added
    cases located : tree.locate above with
    | error error => simp [located] at added
    | ok directory =>
      by_cases isDirectory : tree.entry? directory = some .directory
      · by_cases up : name = ".."
        · simp [located, isDirectoryAt, isDirectory, up] at added
        · cases found : tree.entry? (directory ++ [name]) with
          | some other => simp [located, isDirectoryAt, isDirectory, up, found] at added
          | none =>
            simp only [located, isDirectoryAt, isDirectory, BEq.rfl, Bool.not_true,
              Bool.false_eq_true, if_false, beq_false_of_ne up, found, Except.ok.injEq] at added
            exact ⟨above, name, directory, rfl, located, isDirectory, up, found, added.symm⟩
      · simp [located, isDirectoryAt, isDirectory] at added

/-- A file is moved to a name in a directory, over anything but a directory. -/
lemma exists_of_moveOver {source : Path} (moved : tree.moveOver source path = .ok after) :
    ∃ above name directory entry, path = above ++ [name] ∧ tree.locate above = .ok directory ∧
      name ≠ ".." ∧ name ≠ "." ∧ tree.entry? (directory ++ [name]) ≠ some .directory ∧
      tree.entry? source = some entry ∧
      after = (tree.prune source).put (directory ++ [name]) entry := by
  obtain rfl | ⟨above, name, rfl⟩ := path.eq_nil_or_concat'
  · cases moved
  · rw [moveOver, List.getLast?_concat, List.dropLast_concat] at moved
    cases located : tree.locate above with
    | error error => simp [located] at moved
    | ok directory =>
      by_cases dots : name = ".." ∨ name = "."
      · simp [located, dots] at moved
      · obtain ⟨ne_up, ne_here⟩ := not_or.mp dots
        simp only [located, beq_false_of_ne ne_up, beq_false_of_ne ne_here, Bool.or_false,
          Bool.false_eq_true, if_false] at moved
        split at moved
        next => cases moved
        next entry found leaf =>
          exact ⟨above, name, directory, entry, rfl, located, ne_up, ne_here, leaf, found,
            (Except.ok.inj moved).symm⟩
        next => cases moved

end Steps

section Gains

/-- Directories on the way of some names are added to a tree, and nothing else changes. -/
structure GainsFolders (tree made : FileTree) (names : List String) : Prop where
  proper : made.IsProper
  kept : ∀ {path entry}, tree.entry? path = some entry → made.entry? path = some entry
  gained : ∀ {path entry}, made.entry? path = some entry → tree.entry? path = some entry ∨
    entry = .directory ∧ ∃ above, above <+: names ∧ made.locate above = .ok path

namespace GainsFolders

/-- Nothing is gained by doing nothing. -/
lemma refl (proper : tree.IsProper) (names : List String) : tree.GainsFolders tree names :=
  ⟨proper, id, .inl⟩

/-- Another directory on the way is added. -/
lemma put (gains : tree.GainsFolders made names) (inside : above ++ [name] <+: names)
    (located : made.locate above = .ok directory)
    (isDirectory : made.entry? directory = some .directory) (step : Path.IsStep name)
    (ne_up : name ≠ "..") (free : made.entry? (directory ++ [name]) = none) :
    tree.GainsFolders (made.put (directory ++ [name]) .directory) names ∧
      (made.put (directory ++ [name]) .directory).isDirectory (above ++ [name]) := by
  have put (other : Path) : FileTree.entry? (made.put (directory ++ [name]) .directory) other
      = if other = directory ++ [name] then some .directory else made.entry? other :=
    entry?_put (by simp) other
  have grows : made.GrowsTo (made.put (directory ++ [name]) .directory) :=
    growsTo_put (by simp) free (by simp)
  have isNew := (put (directory ++ [name])).trans (if_pos rfl)
  have locatedNew : FileTree.locate (made.put (directory ++ [name]) .directory) (above ++ [name])
      = .ok (directory ++ [name]) :=
    locate_last_direct (grows.locate_eq_ok located) (grows.kept isDirectory)
      (.directory ne_up step.ne_here isNew (.done _))
  refine ⟨⟨gains.proper.put isDirectory step ne_up (by rw [free]; nofun),
    fun found => grows.kept (gains.kept found), fun {path entry} found => ?_⟩,
    isDirectory_iff.mpr ⟨_, locatedNew, isNew⟩⟩
  rw [put] at found
  split at found
  next same =>
    cases found
    exact .inr ⟨rfl, above ++ [name], inside, same ▸ locatedNew⟩
  next =>
    obtain old | ⟨isFolder, way, inside', located'⟩ := gains.gained found
    · exact .inl old
    · exact .inr ⟨isFolder, way, inside', grows.locate_eq_ok located'⟩

end GainsFolders

/-- The entry of a name in a directory becomes a file with a content, and every other entry
stays. -/
structure Replaces (made after : FileTree) (above : List String) (name : String) (directory : Path)
    (content : Bytes) : Prop where
  step : Path.IsStep name
  ne_up : name ≠ ".."
  located : made.locate above = .ok directory
  isDirectory : made.entry? directory = some .directory
  leaf : made.entry? (directory ++ [name]) ≠ some .directory
  proper : after.IsProper
  entry? : ∀ other, after.entry? other
    = if other = directory ++ [name] then some (.file content) else made.entry? other

end Gains

end FileTree

namespace Attempt

open FileTree

variable {tree made : FileTree} {names path folder : List String} {place : Path} {content : Bytes}

section Folders

variable (steps : ∀ name ∈ names, Path.IsStep name)
include steps

/-- A step: a directory on the way is made or is there. -/
lemma leaves_makeDirectory (gains : tree.GainsFolders made names) (inside : path <+: names) :
    Leaves (makeDirectory path) made
      (fun _ after => tree.GainsFolders after names ∧ after.isDirectory path)
      (tree.GainsFolders · names) := by
  have first : Leaves (call (fun tree => (fun made => ((), made)) <$> tree.add path .directory)
      fun _ tree => tree) made (fun _ after => tree.GainsFolders after names ∧
        after.isDirectory path) (· = made) := by
    refine .call (fun _ after tried => ?_) rfl fun _ => rfl
    obtain ⟨_, added, same⟩ := Outcome.map_eq_ok.mp tried
    cases same
    obtain ⟨above, name, directory, rfl, located, isDirectory, ne_up, free, rfl⟩ :=
      exists_of_add added
    exact gains.put inside located isDirectory (steps name (inside.subset (by simp))) ne_up free
  refine first.tryCatch fun error after same => .look fun system here => ?_
  rw [same] at here ⊢
  split
  next there =>
    rw [Bool.and_eq_true, here] at there
    exact .pure ⟨gains, there.2⟩
  next => exact .throw gains

/-- Making directories on the way adds directories on the way, also if it is cut off. -/
lemma leaves_makeDirectoriesWithin (depth : Nat) (gains : tree.GainsFolders made names)
    (inside : path <+: names) : Leaves (makeDirectoriesWithin depth path) made
      (fun _ after => tree.GainsFolders after names ∧ after.isDirectory path)
      (tree.GainsFolders · names) := by
  induction depth generalizing made path with
  | zero => exact leaves_makeDirectory steps gains inside
  | succ depth ih =>
    rw [makeDirectoriesWithin]
    refine (leaves_makeDirectory steps gains inside).tryCatch fun error after gains => ?_
    split
    next => exact .throw gains
    next =>
      refine (ih gains ((List.dropLast_prefix path).trans inside)).bind fun _ above gains => ?_
      exact leaves_makeDirectory steps gains.1 inside

end Folders

section Content

/-- An empty file is made where nothing stands. -/
lemma leaves_openTemporary {newName : FileTree → Path → String} {failed : FileTree → Prop}
    (fresh : ∀ tree directory, FileTree.entry? tree (directory ++ [newName tree directory]) = none)
    (unopened : failed made) : Leaves (openTemporary newName folder) made
      (fun place after => place ≠ [] ∧ made.entry? place = none ∧ after = made.put place (.file []))
      failed := by
  refine .call (fun place after tried => ?_) unopened fun _ => unopened
  obtain ⟨directory, _, same⟩ := Outcome.map_eq_ok.mp tried
  cases same
  exact ⟨by simp, fresh made directory, rfl⟩

/-- Filling a new file leaves the content there, or a part of it if it is cut off. -/
lemma leaves_fill {old : Bytes} : Leaves (fill place content) (made.put place (.file old))
    (fun _ after => after = made.put place (.file content))
    (fun after => ∃ part, after = made.put place (.file part)) := by
  refine .call (fun _ after tried => ?_) ⟨old, rfl⟩ fun written =>
    ⟨content.take written, put_put _ _ _ _⟩
  cases tried
  exact put_put _ _ _ _

/-- The temporary file takes the place of the file, or stays. -/
lemma leaves_moveOver (proper : made.IsProper) (folder : made.isDirectory path.dropLast)
    (last : ∀ name ∈ path, name ≠ "." → Path.IsStep name) (ne_root : place ≠ [])
    (free : made.entry? place = none) :
    Leaves (moveOver place path) (made.put place (.file content))
      (fun _ after => ∃ above name directory, path = above ++ [name] ∧
        made.Replaces after above name directory content)
      (fun after => ∃ part, after = made.put place (.file part)) := by
  refine .call (fun _ after tried => ?_) ⟨content, rfl⟩ fun _ => ⟨content, rfl⟩
  obtain ⟨_, moved, same⟩ := Outcome.map_eq_ok.mp tried
  cases same
  obtain ⟨above, name, directory, entry, rfl, located, ne_up, ne_here, leaf, found, rfl⟩ :=
    exists_of_moveOver moved
  have put (other : Path) : FileTree.entry? (made.put place (.file content)) other
      = if other = place then some (.file content) else made.entry? other :=
    entry?_put ne_root other
  have grows : made.GrowsTo (made.put place (.file content)) := growsTo_put ne_root free (by simp)
  -- The directory of the file is found where it was made.
  rw [List.dropLast_concat] at folder
  obtain ⟨directory', located', isDirectory⟩ := isDirectory_iff.mp folder
  cases located.symm.trans (grows.locate_eq_ok located')
  rw [put, if_pos rfl] at found
  cases found
  rw [prune_put proper.wellFormed ne_root free]
  have leaf' : made.entry? (directory ++ [name]) ≠ some .directory :=
    fun isDirectory => leaf (grows.kept isDirectory)
  exact ⟨above, name, directory, rfl, last name (by simp) ne_here, ne_up, located', isDirectory,
    leaf', proper.put isDirectory (last name (by simp) ne_here) ne_up leaf',
    entry?_put (by simp)⟩

/-- A run: the file is replaced, or there is nothing new but directories on the way to it. -/
lemma leaves_replaceFile {newName : FileTree → Path → String}
    (fresh : ∀ tree directory, FileTree.entry? tree (directory ++ [newName tree directory]) = none)
    (proper : tree.IsProper) (steps : ∀ name ∈ path.dropLast, Path.IsStep name)
    (last : ∀ name ∈ path, name ≠ "." → Path.IsStep name) :
    Leaves (replaceFile newName path content) tree
      (fun _ after => ∃ made above name directory, path = above ++ [name] ∧
        tree.GainsFolders made above ∧ made.Replaces after above name directory content)
      (tree.GainsFolders · path.dropLast) := by
  refine (leaves_makeDirectoriesWithin steps _ (.refl proper _) List.prefix_rfl).bind
    fun _ made ⟨gains, folder⟩ => ?_
  refine (leaves_openTemporary fresh gains).bind fun place _ ⟨ne_root, free, here⟩ => ?_
  subst here
  have filled : Leaves (fill place content) (made.put place (.file [])) _ _ := leaves_fill
  have moved := filled.bind fun _ _ same => same ▸
    leaves_moveOver gains.proper folder last ne_root free
  refine (moved.mono ?replaced fun _ broken => broken).tryCatch ?broken
  case replaced =>
    rintro _ after ⟨above, name, directory, rfl, replaces⟩
    rw [List.dropLast_concat] at gains
    exact ⟨made, above, name, directory, rfl, gains, replaces⟩
  case broken =>
    rintro error _ ⟨part, rfl⟩
    -- Without the temporary file the tree is as it was before that was made.
    have discarded : Leaves (discard place) (made.put place (.file part))
        (fun _ after => after = made) (tree.GainsFolders · path.dropLast) :=
      .discard (prune_put gains.proper.wellFormed ne_root free)
    exact discarded.bind fun _ after same => .throw (same ▸ gains)

end Content

end Attempt

end ExportCover
