import Mathlib.Data.List.Nodup
import ExportCover.Proofs.FileTree.Canonical

/-!
# Growing file trees

A file tree grows when files and directories are added to it and nothing else changes. Names lead
where they led before (`Leads.grow`), though names that led nowhere may now lead somewhere.
Canonical paths only depend on the links, so that they stay (`GrowsTo.canonicalFrom_eq`).
-/

namespace ExportCover.FileTree

/-- The second tree is the first one with files and directories added. -/
structure GrowsTo (tree tree' : FileTree) : Prop where
  kept : ∀ {path entry}, tree.entry? path = some entry → tree'.entry? path = some entry
  noLink : ∀ {path target}, tree'.entry? path = some (.link target) →
    tree.entry? path = some (.link target)

variable {tree tree' : FileTree} {here path place directory : Path} {names rest : List String}
  {name target : String} {n : Nat}

/-- Names lead where they led before if no entry is lost. -/
lemma Leads.mono (leads : tree.Leads n here names place)
    (kept : ∀ {path entry}, tree.entry? path = some entry → tree'.entry? path = some entry) :
    tree'.Leads n here names place := by
  induction leads with
  | done here => exact .done here
  | up _ ih => exact .up ih
  | stay _ ih => exact .stay ih
  | file ne_up ne_here found => exact .file ne_up ne_here (kept found)
  | directory ne_up ne_here found _ ih => exact .directory ne_up ne_here (kept found) ih
  | link ne_up ne_here found _ ih => exact .link ne_up ne_here (kept found) ih

/-- Where names lead, they lead in a larger tree. -/
lemma Leads.grow (leads : tree.Leads n here names place) (grows : tree.GrowsTo tree') :
    tree'.Leads n here names place :=
  leads.mono grows.kept

/-- The files make no difference to a way that ends at a directory. -/
lemma Leads.to_directory (leads : tree.Leads n here names place)
    (isDirectory : tree.entry? place = some .directory)
    (kept : ∀ {path entry}, tree.entry? path = some entry → (∀ content, entry ≠ .file content) →
      tree'.entry? path = some entry) : tree'.Leads n here names place := by
  induction leads with
  | done here => exact .done here
  | up _ ih => exact .up (ih isDirectory)
  | stay _ ih => exact .stay (ih isDirectory)
  | file _ _ found => cases found.symm.trans isDirectory
  | directory ne_up ne_here found _ ih =>
    exact .directory ne_up ne_here (kept found (by simp)) (ih isDirectory)
  | link ne_up ne_here found _ ih =>
    exact .link ne_up ne_here (kept found (by simp)) (ih isDirectory)

/-- What is added to a table is looked up behind the rest. -/
lemma entry?_append (entries added : List (Path × Entry)) (path : Path) :
    FileTree.entry? ⟨entries ++ added⟩ path
      = (FileTree.entry? ⟨entries⟩ path).or ((added.find? (·.1 == path)).map (·.2)) := by
  unfold entry?
  split
  · rfl
  · rw [List.find?_append, Option.map_or]

/-- A tree grows by entries that are no links and stand behind its own. -/
lemma growsTo_append {entries added : List (Path × Entry)}
    (noLink : ∀ listed ∈ added, ∀ target, listed.2 ≠ .link target) :
    GrowsTo ⟨entries⟩ ⟨entries ++ added⟩ where
  kept {path entry} found := by
    rw [entry?_append, found, Option.some_or]
  noLink {path target} found := by
    rw [entry?_append, Option.or_eq_some_iff] at found
    obtain found | ⟨_, found⟩ := found
    · exact found
    · obtain ⟨listed, hit, same⟩ := Option.map_eq_some_iff.mp found
      exact absurd same (noLink listed (List.mem_of_find?_eq_some hit) target)

/-- What the table lists is found at its path. -/
lemma WellFormed.entry?_of_mem (wf : tree.WellFormed) {entry : Entry}
    (mem : (path, entry) ∈ tree.entries) : tree.entry? path = some entry := by
  obtain ⟨entry', found⟩ := exists_entry mem (wf.2 _ mem).1
  have listed := mem_entries (wf.2 _ mem).1 found
  cases List.inj_on_of_nodup_map wf.1 mem listed rfl
  exact found

/-- A listed entry is a link. -/
def isLink : Path × Entry → Bool := fun (_, entry) =>
  match entry with
  | .link _ => true
  | _ => false

/-- A tree has at least as many links as another one if it has all of them. -/
lemma WellFormed.linkCount_le (wf : tree.WellFormed)
    (kept : ∀ {path target}, tree.entry? path = some (.link target) →
      tree'.entry? path = some (.link target)) : tree.linkCount ≤ tree'.linkCount := by
  have nodup : ((tree.entries.filter isLink).map (·.1)).Nodup :=
    wf.1.sublist (List.filter_sublist.map _)
  calc tree.linkCount
      = ((tree.entries.filter isLink).map (·.1)).length := by
        rw [List.length_map, ← List.countP_eq_length_filter]
        rfl
    _ ≤ tree'.linkCount := length_le_countP nodup fun path mem => ?_
  obtain ⟨⟨path, entry⟩, filtered, rfl⟩ := List.mem_map.mp mem
  obtain ⟨listed, linked⟩ := List.mem_filter.mp filtered
  cases entry with
  | link target =>
    exact ⟨_, mem_entries (wf.2 _ listed).1 (kept (wf.entry?_of_mem listed)), rfl⟩
  | _ => cases linked

/-- What a path resolves to is its canonical form. -/
lemma eq_canonicalFrom {start : Spelled} (resolved : tree.resolveFrom start names = .ok place) :
    place = tree.canonicalFrom start names := by
  rw [resolveFrom] at resolved
  split at resolved
  · cases resolved
  · exact (Except.ok.inj resolved).symm

namespace GrowsTo

variable (grows : tree.GrowsTo tree')
include grows

/-- A path that leads somewhere leads there in a larger tree. -/
lemma locate_eq_ok (located : tree.locate path = .ok place) : tree'.locate path = .ok place := by
  obtain ⟨n, le, leads⟩ := locate_eq_ok_iff.mp located
  exact locate_eq_ok_iff.mpr ⟨n, le, leads.grow grows⟩

/-- A name in a directory is there in a larger tree. -/
lemma mem_namesIn (mem : name ∈ tree.namesIn directory) : name ∈ tree'.namesIn directory := by
  obtain ⟨entry, found⟩ := mem_namesIn_iff.mp mem
  exact mem_namesIn_iff.mpr ⟨entry, grows.kept found⟩

/-- The names of a path are followed alike in a larger tree. -/
lemma canonicalNames_eq {enter : LinksMet → Spelled → List String → Canonical} {met : LinksMet}
    {spelled : Spelled} :
    tree'.canonicalNames enter met spelled names = tree.canonicalNames enter met spelled names := by
  induction names generalizing met spelled with
  | nil => rfl
  | cons name rest ih =>
    rw [canonicalNames, canonicalNames]
    split
    · exact ih
    · -- Only a link makes a difference here, and both trees have the same links.
      dsimp only
      split
      next target found =>
        rw [grows.noLink found]
        dsimp only
        split
        · exact ih
        · rfl
        · split
          · exact ih
          · rfl
      next other =>
        split
        next target found => exact absurd (grows.kept found) (other target)
        next => exact ih

/-- Links are followed to every depth alike in a larger tree. -/
lemma canonicalWithin_eq (depth : Nat) :
    tree'.canonicalWithin depth = tree.canonicalWithin depth := by
  induction depth with
  | zero => rfl
  | succ depth ih =>
    funext met spelled names
    rw [canonicalWithin, canonicalWithin, ih]
    exact grows.canonicalNames_eq

/-- A larger tree has the same number of links. -/
lemma linkCount_eq (wf : tree.WellFormed) (wf' : tree'.WellFormed) :
    tree'.linkCount = tree.linkCount :=
  Nat.le_antisymm (wf'.linkCount_le grows.noLink) (wf.linkCount_le grows.kept)

/-- What is added does not change how a path is written without links. -/
theorem canonicalFrom_eq (wf : tree.WellFormed) (wf' : tree'.WellFormed) (start : Spelled)
    (names : List String) : tree'.canonicalFrom start names = tree.canonicalFrom start names := by
  rw [canonicalFrom, canonicalFrom, grows.linkCount_eq wf wf', grows.canonicalWithin_eq]

/-- A path that resolves in both trees resolves to one place. -/
lemma resolveFrom_eq (wf : tree.WellFormed) (wf' : tree'.WellFormed) {start : Spelled}
    {place' : Path} (resolved : tree.resolveFrom start names = .ok place)
    (resolved' : tree'.resolveFrom start names = .ok place') : place' = place := by
  rw [eq_canonicalFrom resolved, eq_canonicalFrom resolved', grows.canonicalFrom_eq wf wf']

end GrowsTo

end ExportCover.FileTree

namespace ExportCover.Disk

/-- Files and directories are added to a disk, and the working directory stays. -/
structure GrowsTo (disk disk' : Disk) : Prop where
  tree : disk.tree.GrowsTo disk'.tree
  proper : disk.tree.IsProper
  proper' : disk'.tree.IsProper
  cwd : disk'.cwd = disk.cwd

namespace GrowsTo

variable {disk disk' : Disk} {text : String} (grows : disk.GrowsTo disk')
include grows

/-- A path text that resolves on both disks resolves to one place. -/
lemma resolve_eq {place place' : Path} (resolved : disk.resolve text = .ok place)
    (resolved' : disk'.resolve text = .ok place') : place' = place := by
  rw [resolve] at resolved resolved'
  rw [grows.cwd] at resolved'
  split at resolved
  next isAbsolute =>
    rw [if_pos isAbsolute] at resolved'
    exact grows.tree.resolveFrom_eq grows.proper.wellFormed grows.proper'.wellFormed resolved
      resolved'
  next isRelative =>
    rw [if_neg isRelative] at resolved'
    exact grows.tree.resolveFrom_eq grows.proper.wellFormed grows.proper'.wellFormed resolved
      resolved'

/-- A file that can be read is read the same on a larger disk. -/
lemma read_eq_ok {content : Bytes} (read : disk.read text = .ok content) :
    disk'.read text = .ok content := by
  rw [Disk.read] at read ⊢
  split at read
  next found =>
    cases read
    obtain ⟨place, located, standing⟩ := FileTree.read_eq_ok_iff.mp found
    have found' : disk'.tree.read (disk'.names text) = .ok content := by
      rw [names, grows.cwd]
      exact FileTree.read_eq_ok_iff.mpr
        ⟨place, grows.tree.locate_eq_ok located, grows.tree.kept standing⟩
    rw [found']
  next => cases read

end GrowsTo

end ExportCover.Disk
