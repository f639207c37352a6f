import Mathlib.Data.List.Basic
import Mathlib.Data.List.Induction
import ExportCover.FileTree.Resolve
import ExportCover.Proofs.Path.Names

/-!
# Where paths lead

`Leads` says where names lead from a directory when every link is followed, and through how many
links. There is no limit on that number. The operating system follows the same way and gives up
after its limit (`locate_eq_ok_iff`), so that it finds a place exactly if names lead there through
at most that many links.
-/

namespace ExportCover.FileTree

/-- Names lead from a directory to a place, through a number of links. -/
inductive Leads (tree : FileTree) : Nat → Path → List String → Path → Prop where
  | done (here : Path) : Leads tree 0 here [] here
  | up {n here rest place} (on : Leads tree n here.dropLast rest place) :
    Leads tree n here (".." :: rest) place
  | stay {n here rest place} (on : Leads tree n here rest place) :
    Leads tree n here ("." :: rest) place
  | file {here name content} (ne_up : name ≠ "..") (ne_here : name ≠ ".")
    (found : tree.entry? (here ++ [name]) = some (.file content)) :
    Leads tree 0 here [name] (here ++ [name])
  | directory {n here name rest place} (ne_up : name ≠ "..") (ne_here : name ≠ ".")
    (found : tree.entry? (here ++ [name]) = some .directory)
    (on : Leads tree n (here ++ [name]) rest place) : Leads tree n here (name :: rest) place
  | link {n here name rest target place} (ne_up : name ≠ "..") (ne_here : name ≠ ".")
    (found : tree.entry? (here ++ [name]) = some (.link target))
    (on : Leads tree n (linkStart here target) (targetNames target ++ rest) place) :
    Leads tree (n + 1) here (name :: rest) place

/-- A file tree as it stands on a disk: it is well-formed, and every name in it can be spelled. -/
structure IsProper (tree : FileTree) : Prop where
  wellFormed : tree.WellFormed
  normal : ∀ listed ∈ tree.entries, Path.IsNormal listed.1

/-- Whether a tree is well-formed can be computed. -/
instance (tree : FileTree) : Decidable tree.WellFormed :=
  inferInstanceAs (Decidable (_ ∧ _))

/-- Whether a tree is proper can be computed. -/
instance (tree : FileTree) : Decidable tree.IsProper :=
  decidable_of_iff (tree.WellFormed ∧ ∀ listed ∈ tree.entries, Path.IsNormal listed.1)
    ⟨fun ⟨wellFormed, normal⟩ => ⟨wellFormed, normal⟩,
      fun proper => ⟨proper.wellFormed, proper.normal⟩⟩

variable {tree : FileTree} {here path place directory : Path} {names rest : List String}
  {name : String} {n m limit : Nat}

section Lookup

/-- Links followed, and the last name must be there. -/
abbrev followAll : LastName := ⟨true, false⟩

/-- Without names one stays where one is. -/
@[simp]
lemma locateWithin_nil : tree.locateWithin followAll limit here [] = .ok here := by
  cases limit <;> rfl

/-- The name `..` leads up. -/
@[simp]
lemma locateWithin_up : tree.locateWithin followAll limit here (".." :: rest)
    = tree.locateWithin followAll limit here.dropLast rest := by
  cases limit <;> rfl

/-- The name `.` leads nowhere else. -/
@[simp]
lemma locateWithin_stay : tree.locateWithin followAll limit here ("." :: rest)
    = tree.locateWithin followAll limit here rest := by
  cases limit <;> rfl

/-- A name that is no step back or none at all is looked up. -/
lemma locateWithin_name (ne_up : name ≠ "..") (ne_here : name ≠ ".") :
    tree.locateWithin followAll limit here (name :: rest)
      = match tree.entry? (here ++ [name]) with
        | none => .error .noEntry
        | some (.file _) => if rest.isEmpty then .ok (here ++ [name]) else .error .notDirectory
        | some .directory => tree.locateWithin followAll limit (here ++ [name]) rest
        | some (.link target) =>
          match limit with
          | 0 => .error .tooManyLinks
          | limit + 1 => tree.locateWithin followAll limit (linkStart here target)
              (targetNames target ++ rest) := by
  have up : (name == "..") = false := beq_false_of_ne ne_up
  have stay : (name == ".") = false := beq_false_of_ne ne_here
  have followed : (rest.isEmpty && !followAll.followLink) = false := Bool.and_false _
  cases limit with
  | zero =>
    rw [locateWithin, locateNames, up, stay, followed]
    rfl
  | succ limit =>
    rw [locateWithin, locateNames, up, stay, followed]
    rfl

end Lookup

/-- Names that lead to a place are followed within a limit exactly if they lead through no more
links than that. -/
lemma Leads.locateWithin_eq (leads : tree.Leads n here names place) (limit : Nat) :
    tree.locateWithin followAll limit here names
      = if n ≤ limit then .ok place else .error .tooManyLinks := by
  induction leads generalizing limit with
  | done here => simp
  | up _ ih => rw [locateWithin_up, ih]
  | stay _ ih => rw [locateWithin_stay, ih]
  | file ne_up ne_here found => simp [locateWithin_name ne_up ne_here, found]
  | directory ne_up ne_here found _ ih => simp [locateWithin_name ne_up ne_here, found, ih]
  | link ne_up ne_here found _ ih =>
    cases limit with
    | zero => simp [locateWithin_name ne_up ne_here, found]
    | succ limit => simp [locateWithin_name ne_up ne_here, found, ih]

/-- What is found within a limit is led to. -/
lemma exists_leads (found : tree.locateWithin followAll limit here names = .ok place) :
    ∃ n ≤ limit, tree.Leads n here names place := by
  -- A link replaces a name by any number of names but uses up the limit, so the induction is on the
  -- limit first and on the names within it.
  induction limit using Nat.strong_induction_on generalizing here names with
  | _ limit onLink =>
    induction names generalizing here with
    | nil =>
      rw [locateWithin_nil] at found
      cases found
      exact ⟨0, Nat.zero_le _, .done _⟩
    | cons name rest ih =>
      by_cases up : name = ".."
      · subst up
        obtain ⟨n, le, on⟩ := ih (locateWithin_up ▸ found)
        exact ⟨n, le, .up on⟩
      by_cases stay : name = "."
      · subst stay
        obtain ⟨n, le, on⟩ := ih (locateWithin_stay ▸ found)
        exact ⟨n, le, .stay on⟩
      rw [locateWithin_name up stay] at found
      split at found
      next => cases found
      next entry =>
        split at found
        next last =>
          cases found
          rw [List.isEmpty_iff.mp last]
          exact ⟨0, Nat.zero_le _, .file up stay entry⟩
        next => cases found
      next entry =>
        obtain ⟨n, le, on⟩ := ih found
        exact ⟨n, le, .directory up stay entry on⟩
      next target entry =>
        cases limit with
        | zero => cases found
        | succ limit =>
          obtain ⟨n, le, on⟩ := onLink limit (Nat.lt_succ_self _) found
          exact ⟨n + 1, Nat.succ_le_succ le, .link up stay entry on⟩

/-- The operating system finds a place exactly if the path leads there through no more links than
it follows. -/
lemma locate_eq_ok_iff :
    tree.locate path = .ok place ↔ ∃ n ≤ linkLimit, tree.Leads n [] path place := by
  constructor
  · exact exists_leads
  · rintro ⟨n, le, leads⟩
    rw [locate, leads.locateWithin_eq, if_pos le]

/-- A path that leads somewhere is followed unless it leads through too many links. -/
lemma Leads.locate_eq (leads : tree.Leads n [] path place)
    (followed : tree.locate path ≠ .error .tooManyLinks) : tree.locate path = .ok place := by
  rw [locate, leads.locateWithin_eq] at followed ⊢
  split
  next => rfl
  next exceeded => exact absurd (if_neg exceeded) followed

/-- Names lead to one place, through one number of links. -/
lemma Leads.unique {other : Path} (leads : tree.Leads n here names place)
    (leads' : tree.Leads m here names other) : n = m ∧ place = other := by
  have atN := (leads.locateWithin_eq n).symm.trans (leads'.locateWithin_eq n)
  have atM := (leads.locateWithin_eq m).symm.trans (leads'.locateWithin_eq m)
  rw [if_pos le_rfl] at atN atM
  split at atN
  next mn =>
    split at atM
    next nm => exact ⟨le_antisymm nm mn, by cases atN; rfl⟩
    next => cases atM
  next => cases atN

section Composition

/-- Ways are put together at a directory. -/
lemma Leads.append {mid : Path} (first : tree.Leads n here names mid)
    (isDirectory : tree.entry? mid = some .directory) (second : tree.Leads m mid rest place) :
    tree.Leads (n + m) here (names ++ rest) place := by
  induction first with
  | done here => simpa using second
  | up _ ih => exact .up (ih isDirectory second)
  | stay _ ih => exact .stay (ih isDirectory second)
  | file _ _ found => cases found.symm.trans isDirectory
  | directory ne_up ne_here found _ ih =>
    exact .directory ne_up ne_here found (ih isDirectory second)
  | @link n here name names target mid ne_up ne_here found _ ih =>
    have on := ih isDirectory second
    rw [List.append_assoc] at on
    have whole := Leads.link ne_up ne_here found on
    rwa [Nat.add_right_comm] at whole

/-- Every way can be split at its start. -/
lemma Leads.split_nil (leads : tree.Leads n here rest place) :
    ∃ k m mid, n = k + m ∧ tree.Leads k here [] mid ∧ tree.Leads m mid rest place :=
  ⟨0, n, here, (Nat.zero_add n).symm, .done here, leads⟩

/-- A way is taken apart between any two of its names. -/
lemma Leads.split (leads : tree.Leads n here (names ++ rest) place) :
    ∃ k m mid, n = k + m ∧ tree.Leads k here names mid ∧ tree.Leads m mid rest place := by
  generalize all : names ++ rest = joined at leads
  induction leads generalizing names with
  | done here =>
    obtain ⟨rfl, rfl⟩ := List.append_eq_nil_iff.mp all
    exact split_nil (.done here)
  | up on ih =>
    cases names with
    | nil =>
      cases all
      exact split_nil (.up on)
    | cons first names =>
      cases all
      obtain ⟨k, m, mid, sum, before, after⟩ := ih rfl
      exact ⟨k, m, mid, sum, .up before, after⟩
  | stay on ih =>
    cases names with
    | nil =>
      cases all
      exact split_nil (.stay on)
    | cons first names =>
      cases all
      obtain ⟨k, m, mid, sum, before, after⟩ := ih rfl
      exact ⟨k, m, mid, sum, .stay before, after⟩
  | file ne_up ne_here found =>
    cases names with
    | nil =>
      cases all
      exact split_nil (.file ne_up ne_here found)
    | cons first names =>
      obtain ⟨rfl, nothing⟩ := List.cons.inj all
      obtain ⟨rfl, rfl⟩ := List.append_eq_nil_iff.mp nothing
      exact ⟨0, 0, _, rfl, .file ne_up ne_here found, .done _⟩
  | directory ne_up ne_here found on ih =>
    cases names with
    | nil =>
      cases all
      exact split_nil (.directory ne_up ne_here found on)
    | cons first names =>
      cases all
      obtain ⟨k, m, mid, sum, before, after⟩ := ih rfl
      exact ⟨k, m, mid, sum, .directory ne_up ne_here found before, after⟩
  | link ne_up ne_here found on ih =>
    cases names with
    | nil =>
      cases all
      exact split_nil (.link ne_up ne_here found on)
    | cons first names =>
      cases all
      -- The target of the link stands in front of both parts and goes to the first one.
      obtain ⟨k, m, mid, sum, before, after⟩ := ih (List.append_assoc _ _ _)
      exact ⟨k + 1, m, mid, by omega, .link ne_up ne_here found before, after⟩

/-- The name `.` goes nowhere. -/
lemma Leads.of_stay (leads : tree.Leads n here ("." :: rest) place) :
    tree.Leads n here rest place := by
  generalize stays : "." = name at leads
  cases leads with
  | up => exact absurd stays (by decide)
  | stay on => exact on
  | file _ ne_here => exact absurd stays.symm ne_here
  | directory _ ne_here => exact absurd stays.symm ne_here
  | link _ ne_here => exact absurd stays.symm ne_here

/-- A name leads to the entry of that name, unless it is a link. -/
lemma Leads.eq_or_link (leads : tree.Leads n here [name] place) (ne_up : name ≠ "..")
    (ne_here : name ≠ ".") :
    place = here ++ [name] ∨ ∃ target, tree.entry? (here ++ [name]) = some (.link target) := by
  cases leads with
  | up => exact absurd rfl ne_up
  | stay => exact absurd rfl ne_here
  | file => exact .inl rfl
  | directory _ _ _ on =>
    cases on
    exact .inl rfl
  | link _ _ found => exact .inr ⟨_, found⟩

end Composition

section Entries

/-- Below the root, an entry is looked up in the table. -/
lemma entry?_below (ne_root : path ≠ []) :
    tree.entry? path = (tree.entries.find? (·.1 == path)).map (·.2) := by
  unfold entry?
  exact if_neg (by simpa using ne_root)

/-- What is found at a path stands in the table. -/
lemma mem_entries {entry : Entry} (ne_root : path ≠ []) (found : tree.entry? path = some entry) :
    (path, entry) ∈ tree.entries := by
  rw [entry?_below ne_root] at found
  obtain ⟨⟨path', entry'⟩, hit, rfl⟩ := Option.map_eq_some_iff.mp found
  have same : path' = path := by simpa using List.find?_some hit
  subst same
  exact List.mem_of_find?_eq_some hit

/-- Something is found at every path of the table. -/
lemma exists_entry {listed : Path × Entry} (mem : listed ∈ tree.entries) (ne_root : listed.1 ≠ []) :
    ∃ entry, tree.entry? listed.1 = some entry := by
  have hit : (tree.entries.find? (·.1 == listed.1)).isSome :=
    List.find?_isSome.mpr ⟨listed, mem, by simp⟩
  obtain ⟨found, hit⟩ := Option.isSome_iff_exists.mp hit
  exact ⟨found.2, by rw [entry?_below ne_root, hit]; rfl⟩

/-- Every entry stands in a directory. -/
lemma WellFormed.entry?_parent (wf : tree.WellFormed) {entry : Entry}
    (found : tree.entry? (directory ++ [name]) = some entry) :
    tree.entry? directory = some .directory := by
  have listed := mem_entries (by simp) found
  simpa using (wf.2 _ listed).2

/-- What stands above an entry is a directory. -/
lemma WellFormed.entry?_above (wf : tree.WellFormed) {names : List String} {entry : Entry}
    (found : tree.entry? (directory ++ names ++ [name]) = some entry) :
    tree.entry? directory = some .directory := by
  induction names using List.reverseRecOn generalizing name entry with
  | nil => exact wf.entry?_parent (by simpa using found)
  | append_singleton names last ih => exact ih (by simpa using wf.entry?_parent found)

/-- The directory above a directory is one, and so is the root. -/
lemma WellFormed.entry?_dropLast (wf : tree.WellFormed)
    (found : tree.entry? here = some .directory) : tree.entry? here.dropLast = some .directory := by
  obtain rfl | ⟨directory, name, rfl⟩ := List.eq_nil_or_concat' here
  · exact found
  · rw [List.dropLast_concat]
    exact wf.entry?_parent found

/-- A path with a directory and a last name is made of them. -/
lemma eq_concat_of_named
    (named : (if path.dropLast == directory then path.getLast? else none) = some name) :
    path = directory ++ [name] := by
  split at named
  next above =>
    rw [← beq_iff_eq.mp above]
    exact (List.dropLast_append_getLast? name named).symm
  next => cases named

/-- The names in a directory are those at which something stands. -/
lemma mem_namesIn_iff :
    name ∈ tree.namesIn directory ↔ ∃ entry, tree.entry? (directory ++ [name]) = some entry := by
  simp only [namesIn, List.mem_mergeSort, List.mem_filterMap]
  constructor
  · rintro ⟨⟨path, entry⟩, listed, named⟩
    cases eq_concat_of_named named
    exact exists_entry listed (by simp)
  · rintro ⟨entry, found⟩
    exact ⟨_, mem_entries (by simp) found, by simp⟩

/-- No name stands twice in a directory. -/
lemma WellFormed.nodup_namesIn (wf : tree.WellFormed) : (tree.namesIn directory).Nodup := by
  rw [namesIn, (List.mergeSort_perm _ _).nodup_iff, List.Nodup, List.pairwise_filterMap]
  refine (List.pairwise_map.mp wf.1).imp fun apart name named name' named' same => apart ?_
  rw [eq_concat_of_named named, eq_concat_of_named named', same]

/-- No name of a path at which something stands is `.` or `..`. -/
lemma IsProper.normal_of_entry? (proper : tree.IsProper) {entry : Entry}
    (found : tree.entry? path = some entry) : Path.IsNormal path := by
  by_cases root : path = []
  · subst root
    intro name mem
    cases mem
  · exact proper.normal _ (mem_entries root found)

/-- The names in a directory are neither `.` nor `..`. -/
lemma IsProper.step_of_mem (proper : tree.IsProper) (mem : name ∈ tree.namesIn directory) :
    name ≠ ".." ∧ name ≠ "." := by
  obtain ⟨entry, found⟩ := mem_namesIn_iff.mp mem
  obtain ⟨step, ne_up⟩ := proper.normal_of_entry? found name (by simp)
  exact ⟨ne_up, step.ne_here⟩

/-- A directory leads to itself, through no links. -/
lemma IsProper.leads_directory (proper : tree.IsProper)
    (isDirectory : tree.entry? directory = some .directory) :
    tree.Leads 0 [] directory directory := by
  induction directory using List.reverseRecOn with
  | nil => exact .done []
  | append_singleton above name ih =>
    have isAbove := proper.wellFormed.entry?_parent isDirectory
    obtain ⟨step, ne_up⟩ := proper.normal_of_entry? isDirectory name (by simp)
    exact (ih isAbove).append isAbove (.directory ne_up step.ne_here isDirectory (.done _))

/-- A file leads to itself, through no links. -/
lemma IsProper.leads_file (proper : tree.IsProper) {content : Bytes}
    (found : tree.entry? place = some (.file content)) : tree.Leads 0 [] place place := by
  obtain rfl | ⟨directory, name, rfl⟩ := List.eq_nil_or_concat' place
  · cases found
  · have above := proper.wellFormed.entry?_parent found
    obtain ⟨step, ne_up⟩ := proper.normal_of_entry? found name (by simp)
    exact (proper.leads_directory above).append above (.file ne_up step.ne_here found)

/-- Names lead from a directory to a directory or a file. -/
lemma WellFormed.leads_ends (wf : tree.WellFormed) (leads : tree.Leads n here names place)
    (isDirectory : tree.entry? here = some .directory) :
    tree.entry? place = some .directory ∨ ∃ content, tree.entry? place = some (.file content) := by
  induction leads with
  | done here => exact .inl isDirectory
  | up _ ih => exact ih (wf.entry?_dropLast isDirectory)
  | stay _ ih => exact ih isDirectory
  | file _ _ found => exact .inr ⟨_, found⟩
  | directory _ _ found _ ih => exact ih found
  | @link n here name rest target place _ _ _ _ ih =>
    refine ih ?_
    rw [linkStart]
    split
    · rfl
    · exact isDirectory

end Entries

section Steps

/-- What a path leads to is what stands at its place. -/
lemma status_eq_ok_iff {entry : Entry} : tree.status path = .ok entry ↔
    ∃ place, tree.locate path = .ok place ∧ tree.entry? place = some entry := by
  rw [status]
  cases tree.locate path with
  | error e => simp
  | ok place =>
    cases found : tree.entry? place with
    | none => simp [found]
    | some entry' => simp [found]

/-- A file is found at its own place. -/
lemma IsProper.locate_file (proper : tree.IsProper) {content : Bytes}
    (found : tree.entry? place = some (.file content)) : tree.locate place = .ok place :=
  locate_eq_ok_iff.mpr ⟨0, Nat.zero_le _, proper.leads_file found⟩

/-- A file can be read if a path leads to it. -/
lemma read_eq_ok_iff {content : Bytes} : tree.read path = .ok content ↔
    ∃ place, tree.locate path = .ok place ∧ tree.entry? place = some (.file content) := by
  rw [← status_eq_ok_iff, FileTree.read]
  split
  next failed => simp [failed]
  next found => simp [found]
  next entry other found =>
    simpa [found] using fun same => absurd same (other content)

/-- A path is followed to a place in a directory, and then its last name from there. -/
lemma exists_leads_last (located : tree.locate path = .ok directory)
    (found : tree.locate (path ++ [name]) = .ok place) :
    ∃ n ≤ linkLimit, tree.Leads n directory [name] place := by
  obtain ⟨whole, le, leads⟩ := locate_eq_ok_iff.mp found
  obtain ⟨k, m, mid, rfl, before, after⟩ := leads.split
  obtain ⟨_, _, before'⟩ := locate_eq_ok_iff.mp located
  obtain ⟨_, rfl⟩ := before.unique before'
  exact ⟨m, by omega, after⟩

/-- A name leads from a directory where it leads at the end of a path to the directory, unless that
path leads through too many links. -/
lemma locate_last (located : tree.locate path = .ok directory)
    (isDirectory : tree.entry? directory = some .directory)
    (leads : tree.Leads n directory [name] place)
    (followed : tree.locate (path ++ [name]) ≠ .error .tooManyLinks) :
    tree.locate (path ++ [name]) = .ok place := by
  obtain ⟨_, _, before⟩ := locate_eq_ok_iff.mp located
  exact (before.append isDirectory leads).locate_eq followed

/-- A name that is no link takes no more links to follow than the path before it. -/
lemma locate_last_direct (located : tree.locate path = .ok directory)
    (isDirectory : tree.entry? directory = some .directory)
    (leads : tree.Leads 0 directory [name] place) : tree.locate (path ++ [name]) = .ok place := by
  obtain ⟨n, le, before⟩ := locate_eq_ok_iff.mp located
  exact locate_eq_ok_iff.mpr ⟨n, le, before.append isDirectory leads⟩

end Steps

end ExportCover.FileTree
