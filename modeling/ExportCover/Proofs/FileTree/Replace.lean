import Mathlib.Data.List.Perm.Subperm
import ExportCover.FileTree.Edit
import ExportCover.Proofs.FileTree.Growth

/-!
# Replacing a file

What `replaceFile` leaves behind. The folder of the file is made if nothing stands in its place
(`makeDirectories_new`), and then the entry of the file's name in that folder is a file with the new
content, whatever stood there unless it was a directory (`replaceFile_eq`). No other entry changes
(`entry?_put`), and names lead to the folder as before unless the entry that was replaced led to a
directory (`Leads.put`). So a file that was replaced once can be replaced again
(`Keeps.exists_replaceFile`).
-/

namespace ExportCover.FileTree

variable {tree tree' : FileTree} {here path place directory : Path} {above names rest : List String}
  {name : String} {content : Bytes} {entry : Entry} {n : Nat}

section Put

/-- Nothing stands at a path exactly if the table does not list it. -/
lemma entry?_eq_none_iff (ne_root : path ≠ []) :
    tree.entry? path = none ↔ path ∉ tree.entries.map (·.1) := by
  rw [entry?_below ne_root, Option.map_eq_none_iff, List.find?_eq_none]
  simp only [beq_iff_eq, List.mem_map, not_exists, not_and]

/-- An entry at a listed path is put in the place of the old one. -/
lemma put_of_mem (mem : path ∈ tree.entries.map (·.1)) : tree.put path entry
    = ⟨tree.entries.map fun listed => if listed.1 == path then (path, entry) else listed⟩ := by
  rw [put, if_pos]
  obtain ⟨listed, mem, same⟩ := List.mem_map.mp mem
  exact List.any_eq_true.mpr ⟨listed, mem, by simpa using same⟩

/-- An entry at a new path is put behind the others. -/
lemma put_of_notMem (new : path ∉ tree.entries.map (·.1)) :
    tree.put path entry = ⟨tree.entries ++ [(path, entry)]⟩ := by
  rw [put, if_neg]
  intro any
  obtain ⟨listed, mem, same⟩ := List.any_eq_true.mp any
  exact new (List.mem_map.mpr ⟨listed, mem, by simpa using same⟩)

/-- A new path is listed behind the others. -/
lemma paths_put : (tree.put path entry).entries.map (·.1)
    = if path ∈ tree.entries.map (·.1) then tree.entries.map (·.1)
      else tree.entries.map (·.1) ++ [path] := by
  split
  next mem =>
    rw [put_of_mem mem, List.map_map]
    refine List.map_congr_left fun listed _ => ?_
    rw [Function.comp_apply]
    split
    next same => exact (beq_iff_eq.mp same).symm
    next => rfl
  next new => rw [put_of_notMem new, List.map_append, List.map_singleton]

/-- Putting an entry adds no path but its own. -/
lemma mem_paths_put {other : Path} (mem : other ∈ (tree.put path entry).entries.map (·.1)) :
    other = path ∨ other ∈ tree.entries.map (·.1) := by
  rw [paths_put] at mem
  split at mem
  next => exact .inr mem
  next => exact (List.mem_append.mp mem).symm.imp_left List.mem_singleton.mp

/-- In a table, the entry of a path is exchanged where it stands. -/
lemma entry?_map (mem : path ∈ tree.entries.map (·.1)) (ne_root : path ≠ []) (other : Path) :
    FileTree.entry? ⟨tree.entries.map fun listed =>
        if listed.1 == path then (path, entry) else listed⟩ other
      = if other = path then some entry else tree.entry? other := by
  have paths : ((·.1 == other) ∘ fun listed : Path × Entry =>
      if listed.1 == path then (path, entry) else listed) = (·.1 == other) := by
    funext listed
    rw [Function.comp_apply]
    split
    next same => rw [beq_iff_eq.mp same]
    next => rfl
  by_cases root : other = []
  · subst root
    rw [if_neg (Ne.symm ne_root)]
    rfl
  · rw [entry?_below root, entry?_below root, List.find?_map, paths]
    cases hit : tree.entries.find? (·.1 == other) with
    | none =>
      have ne : other ≠ path := by
        rintro rfl
        refine (entry?_eq_none_iff root).mp ?_ mem
        rw [entry?_below root, hit]
        rfl
      rw [if_neg ne]
      rfl
    | some listed =>
      have same : listed.1 = other := by simpa using List.find?_some hit
      by_cases here : other = path
      · simp [same, here]
      · simp [same, here]

/-- An entry that is put somewhere stands there, and every other entry stays. -/
lemma entry?_put (ne_root : path ≠ []) (other : Path) :
    FileTree.entry? (tree.put path entry) other
      = if other = path then some entry else tree.entry? other := by
  by_cases mem : path ∈ tree.entries.map (·.1)
  · rw [put_of_mem mem, entry?_map mem ne_root]
  · rw [put_of_notMem mem, entry?_append]
    split
    next same =>
      rw [same, (entry?_eq_none_iff ne_root).mpr mem]
      simp
    next ne => simp [Ne.symm ne]

/-- Anything can be put where no directory stands. -/
lemma IsProper.put (proper : tree.IsProper) (above : tree.entry? directory = some .directory)
    (step : Path.IsStep name) (ne_up : name ≠ "..")
    (leaf : tree.entry? (directory ++ [name]) ≠ some .directory) :
    (tree.put (directory ++ [name]) entry).IsProper where
  wellFormed := by
    constructor
    · rw [paths_put]
      split
      next => exact proper.wellFormed.1
      next new =>
        rw [← List.concat_eq_append]
        exact proper.wellFormed.1.concat new
    · intro listed mem
      obtain same | old := mem_paths_put (List.mem_map_of_mem mem)
      · rw [same, entry?_put (by simp), List.dropLast_concat, if_neg (by simp), above]
        exact ⟨by simp, rfl⟩
      · obtain ⟨_, oldMem, same⟩ := List.mem_map.mp old
        obtain ⟨ne_root, parent⟩ := proper.wellFormed.2 _ oldMem
        rw [same] at ne_root parent
        refine ⟨ne_root, ?_⟩
        -- An entry stands below a directory, and no directory is replaced.
        have ne : listed.1.dropLast ≠ directory ++ [name] := by
          intro isLeaf
          rw [isLeaf] at parent
          exact leaf parent
        rw [entry?_put (by simp), if_neg ne, parent]
  normal listed mem := by
    obtain same | old := mem_paths_put (List.mem_map_of_mem mem)
    · rw [same]
      exact (proper.normal_of_entry? above).concat step ne_up
    · obtain ⟨_, oldMem, same⟩ := List.mem_map.mp old
      exact same ▸ proper.normal _ oldMem

end Put

section Temporary

/-- Nothing stands below a path at which nothing stands. -/
lemma WellFormed.entry?_append_eq_none (wf : tree.WellFormed) (none : tree.entry? path = none)
    (names : List String) : tree.entry? (path ++ names) = .none := by
  induction names using List.reverseRecOn with
  | nil => rwa [List.append_nil]
  | append_singleton names name ih =>
    cases found : tree.entry? (path ++ (names ++ [name])) with
    | none => rfl
    | some entry =>
      rw [← List.append_assoc] at found
      cases ih.symm.trans (wf.entry?_parent found)

/-- An entry that was put where nothing stood is removed without a trace. -/
lemma prune_put (wf : tree.WellFormed) (ne_root : path ≠ []) (none : tree.entry? path = none) :
    (tree.put path entry).prune path = tree := by
  have kept : tree.entries.filter (fun listed => !path.isPrefixOf listed.1) = tree.entries := by
    refine List.filter_eq_self.mpr fun listed mem => ?_
    rw [Bool.not_eq_true', Bool.eq_false_iff]
    intro isPrefix
    obtain ⟨names, below⟩ := List.isPrefixOf_iff_prefix.mp isPrefix
    have empty := wf.entry?_append_eq_none none names
    rw [below] at empty
    exact (entry?_eq_none_iff (wf.2 listed mem).1).mp empty (List.mem_map_of_mem mem)
  rw [put_of_notMem ((entry?_eq_none_iff ne_root).mp none), prune, List.filter_append, kept]
  simp

/-- Different numbers are written differently. -/
lemma toString_injective {m n : Nat} (same : toString m = toString n) : m = n := by
  have digits : Nat.toDigits 10 m = Nat.toDigits 10 n := by
    simpa [Nat.toString_eq_ofList_toDigits] using congrArg String.toList same
  rw [← Nat.ofDigitChars_ten_toDigits (n := m), digits, Nat.ofDigitChars_ten_toDigits]

/-- More names are tried for a temporary file than there are entries. -/
lemma exists_freeName (tree : FileTree) (directory : Path) : ∃ n < tree.entries.length + 1,
    tree.entry? (directory ++ ["tmp" ++ toString n ++ ".tmp"]) = none := by
  by_contra! taken
  let place (n : Nat) : Path := directory ++ ["tmp" ++ toString n ++ ".tmp"]
  have nodup : ((List.range (tree.entries.length + 1)).map place).Nodup := by
    refine List.Nodup.map (fun m n same => ?_) List.nodup_range
    have names : "tmp" ++ toString m ++ ".tmp" = "tmp" ++ toString n ++ ".tmp" := by
      simpa [place] using same
    exact toString_injective (by simpa using names)
  have within : (List.range (tree.entries.length + 1)).map place ⊆ tree.entries.map (·.1) := by
    intro path mem
    obtain ⟨n, inRange, rfl⟩ := List.mem_map.mp mem
    by_contra new
    exact taken n (List.mem_range.mp inRange) ((entry?_eq_none_iff (by simp)).mpr new)
  have le := (nodup.subperm within).length_le
  simp only [List.length_map, List.length_range] at le
  omega

/-- The name of a temporary file is free. -/
lemma entry?_freshName (tree : FileTree) (directory : Path) :
    tree.entry? (directory ++ [tree.freshName directory]) = none := by
  obtain ⟨n, lt, free⟩ := exists_freeName tree directory
  have found : (((List.range (tree.entries.length + 1)).map fun n =>
      "tmp" ++ toString n ++ ".tmp").find? fun name =>
        (tree.entry? (directory ++ [name])).isNone).isSome :=
    List.find?_isSome.mpr ⟨_, List.mem_map_of_mem (List.mem_range.mpr lt), by rw [free]; rfl⟩
  obtain ⟨name, hit⟩ := Option.isSome_iff_exists.mp found
  rw [freshName]
  simp only [hit, Option.getD_some]
  simpa using List.find?_some hit

end Temporary

section Making

variable (located : tree.locate above = .ok directory)
  (isDirectory : tree.entry? directory = some .directory) (ne_up : name ≠ "..")
include located isDirectory ne_up

/-- A new entry is placed under its name in the directory that is above it. -/
lemma newPlace_eq : tree.newPlace (above ++ [name]) = .ok (directory, name) := by
  rw [newPlace, List.getLast?_concat, List.dropLast_concat, located]
  simp [isDirectoryAt, isDirectory, ne_up]

/-- A folder is made where nothing stands. -/
lemma makeDirectory_new (none : tree.entry? (directory ++ [name]) = none) :
    tree.makeDirectory (above ++ [name]) = ⟨tree.put (directory ++ [name]) .directory, .none⟩ := by
  rw [makeDirectory, add, newPlace_eq located isDirectory ne_up]
  simp only [none]

/-- A folder that is there already is left as it is. -/
lemma makeDirectory_old (some : tree.entry? (directory ++ [name]) = some entry)
    (leads : tree.isDirectory (above ++ [name])) :
    tree.makeDirectory (above ++ [name]) = ⟨tree, none⟩ := by
  rw [makeDirectory, add, newPlace_eq located isDirectory ne_up]
  simp only [some, leads]
  rfl

end Making

/-- If a directory can be made then no directories above it need to be. -/
lemma makeDirectories_eq (made : tree.makeDirectory path = ⟨tree', none⟩) :
    tree.makeDirectories path = ⟨tree', none⟩ := by
  rw [makeDirectories]
  cases path.length with
  | zero => exact made
  | succ depth => rw [makeDirectoriesWithin, made]

/-- What is put where nothing stands adds to the tree, unless it is a link. -/
lemma growsTo_put (ne_root : path ≠ []) (none : tree.entry? path = none)
    (noLink : ∀ target, entry ≠ .link target) : tree.GrowsTo (tree.put path entry) := by
  rw [put_of_notMem ((entry?_eq_none_iff ne_root).mp none)]
  exact growsTo_append (by simpa using noLink)

/-- A file is moved over anything but a directory. -/
lemma moveOver_eq {source : Path} (located : tree.locate above = .ok directory)
    (ne_up : name ≠ "..") (ne_here : name ≠ ".")
    (leaf : tree.entry? (directory ++ [name]) ≠ some .directory)
    (found : tree.entry? source = some entry) : tree.moveOver source (above ++ [name])
      = .ok ((tree.prune source).put (directory ++ [name]) entry) := by
  rw [moveOver, List.getLast?_concat, List.dropLast_concat, located]
  simp only [beq_false_of_ne ne_up, beq_false_of_ne ne_here, Bool.or_false, Bool.false_eq_true,
    if_false, found]

/-- A folder that is there need not be made. -/
lemma folderAt_eq (located : tree.locate above = .ok directory)
    (isDirectory : tree.entry? directory = some .directory) :
    tree.folderAt above = .ok directory := by
  simp [folderAt, located, isDirectoryAt, isDirectory]

/-- The entry of a file's name in its folder becomes a file with the new content, unless it is a
directory. -/
lemma replaceFile_eq (made : tree.makeDirectories above = ⟨tree', none⟩) (wf : tree'.WellFormed)
    (down : ∀ other ∈ above, other ≠ "..") (located : tree'.locate above = .ok directory)
    (isDirectory : tree'.entry? directory = some .directory)
    (leaf : tree'.entry? (directory ++ [name]) ≠ some .directory) (ne_up : name ≠ "..")
    (ne_here : name ≠ ".") : tree.replaceFile (above ++ [name]) content
      = ⟨tree'.put (directory ++ [name]) (.file content), none⟩ := by
  have free := entry?_freshName tree' directory
  rw [replaceFile, withParents, List.dropLast_concat, made]
  simp only [Path.follow_down [] down, List.nil_append, folderAt_eq located isDirectory]
  generalize place : directory ++ [tree'.freshName directory] = temporary at free
  have ne_root : temporary ≠ [] := by simp [← place]
  have written (other : Path) : FileTree.entry? (tree'.put temporary (.file content)) other
      = if other = temporary then some (.file content) else tree'.entry? other :=
    entry?_put ne_root other
  have grows : tree'.GrowsTo (tree'.put temporary (.file content)) :=
    growsTo_put ne_root free (by simp)
  have located' := grows.locate_eq_ok located
  have leaf' : FileTree.entry? (tree'.put temporary (.file content)) (directory ++ [name])
      ≠ some .directory := by
    rw [written]
    split
    · nofun
    · exact leaf
  rw [moveOver_eq located' ne_up ne_here leaf' ((written temporary).trans (if_pos rfl)),
    prune_put wf ne_root free]

section Ways

/-- A link starts at a directory. -/
lemma entry?_linkStart (isDirectory : tree.entry? here = some .directory) (target : String) :
    tree.entry? (linkStart here target) = some .directory := by
  rw [linkStart]
  split
  · rfl
  · exact isDirectory

/-- Names that lead to a file lead on to nothing. -/
lemma Leads.locateWithin_file (leads : tree.Leads n here names place) (wf : tree.WellFormed)
    (isDirectory : tree.entry? here = some .directory)
    (isFile : tree.entry? place = some (.file content)) (more : rest ≠ []) (limit : Nat) :
    tree.locateWithin followAll limit here (names ++ rest)
      = if n ≤ limit then .error .notDirectory else .error .tooManyLinks := by
  induction leads generalizing limit with
  | done here => cases isDirectory.symm.trans isFile
  | up _ ih =>
    rw [List.cons_append, locateWithin_up, ih (wf.entry?_dropLast isDirectory) isFile]
  | stay _ ih => rw [List.cons_append, locateWithin_stay, ih isDirectory isFile]
  | file ne_up ne_here found =>
    simp [locateWithin_name ne_up ne_here, found, more]
  | directory ne_up ne_here found _ ih =>
    simp [locateWithin_name ne_up ne_here, found, ih found isFile]
  | link ne_up ne_here found _ ih =>
    cases limit with
    | zero => simp [locateWithin_name ne_up ne_here, found]
    | succ limit =>
      have on := ih (entry?_linkStart isDirectory _) isFile limit
      rw [List.append_assoc] at on
      simp [locateWithin_name ne_up ne_here, found, on]

/-- On the way to a directory there are directories. -/
lemma Leads.exists_directory (leads : tree.Leads n here (names ++ rest) place)
    (wf : tree.WellFormed) (isHere : tree.entry? here = some .directory)
    (isPlace : tree.entry? place = some .directory) :
    ∃ k mid, tree.Leads k here names mid ∧ tree.entry? mid = some .directory := by
  obtain ⟨k, m, mid, -, before, after⟩ := leads.split
  refine ⟨k, mid, before, ?_⟩
  obtain isDirectory | ⟨content, isFile⟩ := wf.leads_ends before isHere
  · exact isDirectory
  · by_cases last : rest = []
    · subst last
      cases after
      exact isPlace
    · have found := leads.locateWithin_eq n
      rw [before.locateWithin_file wf isHere isFile last, if_pos le_rfl] at found
      split at found <;> cases found

/-- A name does not lead from a directory to a directory. -/
def LeadsAside (tree : FileTree) (directory : Path) (name : String) : Prop :=
  ∀ n place, tree.Leads n directory [name] place → tree.entry? place ≠ some .directory

/-- A name that leads to a directory is not the name of the entry that is replaced. -/
lemma LeadsAside.entry?_put (aside : tree.LeadsAside directory name) (entry : Entry)
    {other : String} (leads : tree.Leads n here [other] place)
    (isPlace : tree.entry? place = some .directory) :
    FileTree.entry? (tree.put (directory ++ [name]) entry) (here ++ [other])
      = tree.entry? (here ++ [other]) := by
  rw [FileTree.entry?_put (by simp), if_neg]
  intro same
  obtain ⟨rfl, rfl⟩ := List.append_inj' same rfl |>.imp_right (List.singleton_inj.mp ·)
  exact aside n place leads isPlace

/-- Names lead to a directory as before when an entry is replaced that does not lead to one. -/
lemma Leads.put (leads : tree.Leads n here names place) (wf : tree.WellFormed)
    (isHere : tree.entry? here = some .directory) (isPlace : tree.entry? place = some .directory)
    (aside : tree.LeadsAside directory name) :
    (tree.put (directory ++ [name]) entry).Leads n here names place := by
  induction leads with
  | done here => exact .done here
  | up _ ih => exact .up (ih (wf.entry?_dropLast isHere) isPlace)
  | stay _ ih => exact .stay (ih isHere isPlace)
  | file _ _ found => cases found.symm.trans isPlace
  | @directory _ here other _ _ ne_up ne_here found on ih =>
    have stays := aside.entry?_put entry (.directory ne_up ne_here found (.done _)) found
    exact .directory ne_up ne_here (stays.trans found) (ih found isPlace)
  | @link _ here other _ target _ ne_up ne_here found on ih =>
    have start := entry?_linkStart isHere target
    -- The way goes on after the link, so that the link leads to a directory.
    obtain ⟨k, mid, before, isDirectory⟩ := on.exists_directory wf start isPlace
    rw [← List.append_nil (targetNames target)] at before
    have stays := aside.entry?_put entry (.link ne_up ne_here found before) isDirectory
    exact .link ne_up ne_here (stays.trans found) (ih start isPlace)

end Ways

section Keeping

/-- A file can be kept in a folder of a directory: nothing stands in the place of the folder, or
it leads to a directory in which the name of the file does not lead to another one. -/
structure Keeps (tree : FileTree) (root : Path) (folder name : String) : Prop where
  proper : tree.IsProper
  isRoot : tree.entry? root = some .directory
  folder : tree.entry? (root ++ [folder]) = none ∨
    ∃ directory, tree.locate (root ++ [folder]) = .ok directory ∧
      tree.entry? directory = some .directory ∧ tree.LeadsAside directory name

variable {root : Path} {folder : String}

/-- A name under which neither a directory nor a link stands leads to no directory. -/
lemma leadsAside_of_leaf (step : Path.IsStep name) (ne_up : name ≠ "..")
    (leaf : tree.entry? (directory ++ [name]) ≠ some .directory)
    (noLink : ∀ target, tree.entry? (directory ++ [name]) ≠ some (.link target)) :
    tree.LeadsAside directory name := by
  intro n place leads
  obtain rfl | ⟨target, isLink⟩ := leads.eq_or_link ne_up step.ne_here
  · exact leaf
  · exact absurd isLink (noLink target)

/-- The entry of a name that leads aside is no directory. -/
lemma LeadsAside.leaf (aside : tree.LeadsAside directory name) (step : Path.IsStep name)
    (ne_up : name ≠ "..") : tree.entry? (directory ++ [name]) ≠ some .directory :=
  fun found => aside 0 _ (.directory ne_up step.ne_here found (.done _)) found

/-- The folder is made unless it is there. -/
lemma Keeps.exists_folder (keeps : tree.Keeps root folder name) (step : Path.IsStep folder)
    (ne_up : folder ≠ "..") (stepName : Path.IsStep name) (ne_upName : name ≠ "..") :
    ∃ tree' directory, tree.makeDirectories (root ++ [folder]) = ⟨tree', none⟩ ∧
      tree'.IsProper ∧ tree'.entry? root = some .directory ∧
      tree'.locate (root ++ [folder]) = .ok directory ∧
      tree'.entry? directory = some .directory ∧ tree'.LeadsAside directory name := by
  have located := keeps.proper.locate_directory keeps.isRoot
  -- Where nothing stood, the folder is new and nothing is below it for the name to lead to.
  cases stands : tree.entry? (root ++ [folder]) with
  | none =>
    have made := makeDirectory_new located keeps.isRoot ne_up stands
    have put (other : Path) : FileTree.entry? (tree.put (root ++ [folder]) .directory) other
        = if other = root ++ [folder] then some .directory else tree.entry? other :=
      entry?_put (by simp) other
    have proper : (tree.put (root ++ [folder]) .directory).IsProper :=
      keeps.proper.put keeps.isRoot step ne_up (by rw [stands]; nofun)
    have isDirectory := (put (root ++ [folder])).trans (if_pos rfl)
    have below : FileTree.entry? (tree.put (root ++ [folder]) .directory)
        (root ++ [folder] ++ [name]) = none := by
      rw [put, if_neg (by simp)]
      exact keeps.proper.wellFormed.entry?_append_eq_none stands [name]
    refine ⟨_, root ++ [folder], makeDirectories_eq made, proper, ?_,
      proper.locate_directory isDirectory, isDirectory, ?_⟩
    · rw [put, if_neg (by simp), keeps.isRoot]
    · exact leadsAside_of_leaf stepName ne_upName (by rw [below]; nofun) (by rw [below]; nofun)
  | some entry =>
    obtain nothing | ⟨directory, leads, isDirectory, aside⟩ := keeps.folder
    · cases stands.symm.trans nothing
    · have isFolder : tree.isDirectory (root ++ [folder]) := by
        rw [FileTree.isDirectory, status_eq_ok_iff.mpr ⟨directory, leads, isDirectory⟩]
      have made := makeDirectory_old located keeps.isRoot ne_up stands isFolder
      exact ⟨tree, directory, makeDirectories_eq made, keeps.proper, keeps.isRoot, leads,
        isDirectory, aside⟩

/-- A file that can be kept in a folder is written there, and the same holds afterwards. -/
theorem Keeps.exists_replaceFile (keeps : tree.Keeps root folder name) (step : Path.IsStep folder)
    (ne_up : folder ≠ "..") (stepName : Path.IsStep name) (ne_upName : name ≠ "..")
    (content : Bytes) : ∃ tree', tree.replaceFile (root ++ [folder, name]) content = ⟨tree', none⟩ ∧
      tree'.Keeps root folder name ∧ tree'.read (root ++ [folder, name]) = .ok content := by
  obtain ⟨made, directory, makes, proper, isRoot, located, isDirectory, aside⟩ :=
    keeps.exists_folder step ne_up stepName ne_upName
  have leaf := aside.leaf stepName ne_upName
  have put (other : Path) :
      FileTree.entry? (made.put (directory ++ [name]) (.file content)) other
        = if other = directory ++ [name] then some (.file content) else made.entry? other :=
    entry?_put (by simp) other
  have isFile := (put (directory ++ [name])).trans (if_pos rfl)
  -- The file replaces no directory, so that all directories stay and the way to the folder too.
  have stays {path : Path} (isDirectory : made.entry? path = some .directory) :
      FileTree.entry? (made.put (directory ++ [name]) (.file content)) path = some .directory := by
    have ne : path ≠ directory ++ [name] := by
      rintro rfl
      exact leaf isDirectory
    rw [put, if_neg ne, isDirectory]
  have located' : (made.put (directory ++ [name]) (.file content)).locate (root ++ [folder])
      = .ok directory := by
    obtain ⟨n, le, leads⟩ := locate_eq_ok_iff.mp located
    exact locate_eq_ok_iff.mpr ⟨n, le, leads.put proper.wellFormed rfl isDirectory aside⟩
  have down : ∀ other ∈ root ++ [folder], other ≠ ".." := by
    intro other mem
    obtain mem | rfl := (List.mem_append.mp mem).imp_right List.mem_singleton.mp
    · exact (keeps.proper.normal_of_entry? keeps.isRoot other mem).2
    · exact ne_up
  have names : root ++ [folder, name] = root ++ [folder] ++ [name] := by simp
  rw [names]
  refine ⟨_, replaceFile_eq makes proper.wellFormed down located isDirectory leaf ne_upName
    stepName.ne_here, ?_, ?_⟩
  · exact {
      proper := proper.put isDirectory stepName ne_upName leaf
      isRoot := stays isRoot
      folder := .inr ⟨directory, located', stays isDirectory,
        leadsAside_of_leaf stepName ne_upName (by simp [isFile]) (by simp [isFile])⟩ }
  · exact read_eq_ok_iff.mpr ⟨directory ++ [name], locate_last_direct located' (stays isDirectory)
      (.file ne_upName stepName.ne_here isFile), isFile⟩

end Keeping

end ExportCover.FileTree
