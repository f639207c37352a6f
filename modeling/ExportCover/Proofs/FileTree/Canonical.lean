import Mathlib.Data.List.Perm.Subperm
import ExportCover.Proofs.FileTree.Following

/-!
# Canonical paths of what can be reached

Where a path leads, its canonical path is that place (`Leads.canonical_eq`). Writing a path without
links remembers where links lead and gives up at a link inside itself. Neither changes the place:
the memory only holds what is so, and a link that leads somewhere does not stand on its own way. So
a path that can be read resolves to the file that is read (`Disk.exists_home`).
-/

namespace ExportCover.FileTree

/-- The link at a path leads to a place, through a number of further links. -/
def LinkLeads (tree : FileTree) (n : Nat) (link place : Path) : Prop :=
  ∃ directory name target, link = directory ++ [name] ∧ tree.entry? link = some (.link target) ∧
    tree.Leads n (linkStart directory target) (Path.names target) place

/-- The links inside of which a way through a number of links is followed: each of them leads
through at least as many. -/
structure Inside (tree : FileTree) (n : Nat) (opened : List Path) : Prop where
  nodup : opened.Nodup
  leads : ∀ link ∈ opened, ∃ m place, n ≤ m ∧ tree.LinkLeads m link place

/-- The links met so far lead where it says, and those without a place are still followed. -/
structure Recorded (tree : FileTree) (opened : List Path) (met : LinksMet) : Prop where
  known : ∀ {link place}, met.lookup ⟨link, none⟩ = some (some place) →
    ∃ n mid, place = ⟨mid, none⟩ ∧ tree.LinkLeads n link mid
  pending : ∀ {link}, met.lookup ⟨link, none⟩ = some none → link ∈ opened

variable {tree : FileTree} {here path place mid link : Path} {names rest : List String}
  {name target : String} {n m depth : Nat} {opened : List Path} {met : LinksMet}

/-- What a separator at the end of a target asks for makes no difference to a way that is there. -/
lemma Leads.of_targetNames (leads : tree.Leads n here (targetNames target) place) :
    tree.Leads n here (Path.names target) place := by
  obtain ⟨k, m, mid, rfl, before, after⟩ := leads.split
  split at after
  next =>
    cases after.of_stay
    exact before
  next =>
    cases after
    exact before

/-- A link leads to one place, through one number of links. -/
lemma LinkLeads.unique {other : Path} (leads : tree.LinkLeads n link place)
    (leads' : tree.LinkLeads m link other) : n = m ∧ place = other := by
  obtain ⟨directory, name, target, rfl, found, on⟩ := leads
  obtain ⟨directory', name', target', same, found', on'⟩ := leads'
  obtain ⟨rfl, rfl⟩ := List.append_inj' same rfl |>.imp_right (List.singleton_inj.mp ·)
  cases found.symm.trans found'
  exact on.unique on'

/-- Different keys of a table with a property are no more than the entries that have it. -/
lemma length_le_countP {α β : Type} {p : α × β → Bool} {entries : List (α × β)} {keys : List α}
    (nodup : keys.Nodup) (listed : ∀ key ∈ keys, ∃ b, (key, b) ∈ entries ∧ p (key, b)) :
    keys.length ≤ entries.countP p := by
  have within : keys ⊆ (entries.filter p).map (·.1) := by
    intro key mem
    obtain ⟨b, inside, holds⟩ := listed key mem
    exact List.mem_map.mpr ⟨_, List.mem_filter.mpr ⟨inside, holds⟩, rfl⟩
  have le := (nodup.subperm within).length_le
  rwa [List.length_map, ← List.countP_eq_length_filter] at le

namespace Inside

/-- What is inside many links is inside fewer. -/
lemma mono (inside : tree.Inside n opened) (le : m ≤ n) : tree.Inside m opened where
  nodup := inside.nodup
  leads link mem := by
    obtain ⟨k, place, le', leads⟩ := inside.leads link mem
    exact ⟨k, place, le.trans le', leads⟩

/-- A link is not met again inside itself: it would lead through more links than it does. -/
lemma notMem (inside : tree.Inside n opened) (leads : tree.LinkLeads m link place) (lt : m < n) :
    link ∉ opened := by
  intro mem
  obtain ⟨k, place', le, leads'⟩ := inside.leads link mem
  obtain ⟨rfl, _⟩ := leads.unique leads'
  omega

/-- Going inside a link. -/
lemma cons (inside : tree.Inside n opened) (leads : tree.LinkLeads m link place) (lt : m < n) :
    tree.Inside m (link :: opened) where
  nodup := List.nodup_cons.mpr ⟨inside.notMem leads lt, inside.nodup⟩
  leads := List.forall_mem_cons.mpr ⟨⟨m, place, le_rfl, leads⟩, (inside.mono lt.le).leads⟩

/-- There are no more links inside each other than links. -/
lemma length_le (inside : tree.Inside n opened) : opened.length ≤ tree.linkCount := by
  refine length_le_countP inside.nodup fun link mem => ?_
  obtain ⟨_, _, _, directory, name, target, rfl, found, _⟩ := inside.leads link mem
  exact ⟨.link target, mem_entries (by simp) found, rfl⟩

end Inside

namespace Recorded

/-- What is met at a link says nothing about another link. -/
lemma lookup_other {other : Path} {leadsTo : Option Spelled} (ne : other ≠ link) :
    ((⟨link, none⟩, leadsTo) :: met).lookup (⟨other, none⟩ : Spelled)
      = met.lookup ⟨other, none⟩ := by
  rw [List.lookup_cons, beq_false_of_ne fun same => ne (Spelled.mk.inj same).1]

/-- A link is met for the first time. -/
lemma opening (recorded : tree.Recorded opened met) :
    tree.Recorded (link :: opened) ((⟨link, none⟩, none) :: met) where
  known {link' place} looked := by
    by_cases same : link' = link
    · simp [same] at looked
    · rw [lookup_other same] at looked
      exact recorded.known looked
  pending {link'} looked := by
    by_cases same : link' = link
    · simp [same]
    · rw [lookup_other same] at looked
      exact List.mem_cons_of_mem _ (recorded.pending looked)

/-- It has turned out where a link leads. -/
lemma closing (recorded : tree.Recorded (link :: opened) met)
    (leads : tree.LinkLeads n link place) :
    tree.Recorded opened ((⟨link, none⟩, some ⟨place, none⟩) :: met) where
  known {link' place'} looked := by
    by_cases same : link' = link
    · subst same
      rw [List.lookup_cons_self] at looked
      cases looked
      exact ⟨n, place, rfl, leads⟩
    · rw [lookup_other same] at looked
      exact recorded.known looked
  pending {link'} looked := by
    by_cases same : link' = link
    · simp [same] at looked
    · rw [lookup_other same] at looked
      exact (List.mem_cons.mp (recorded.pending looked)).resolve_left same

end Recorded

/-- A link in a place spelled from the root leads from a place spelled from the root. -/
lemma Spelled.linkStart_eq (here : Path) (target : String) :
    Spelled.linkStart ⟨here, none⟩ target = ⟨FileTree.linkStart here target, none⟩ := by
  rw [Spelled.linkStart, FileTree.linkStart]
  split <;> rfl

/-- The way that names lead is written without links, whatever was met before. -/
lemma Leads.canonicalWithin_eq (leads : tree.Leads n here names place) (plain : "." ∉ names)
    (inside : tree.Inside n opened) (recorded : tree.Recorded opened met)
    (deep : tree.linkCount < depth + opened.length) :
    ∃ met', tree.canonicalWithin depth met ⟨here, none⟩ names = ⟨⟨place, none⟩, true, met'⟩ ∧
      tree.Recorded opened met' := by
  induction depth generalizing met here names n place opened with
  | zero =>
    have le := inside.length_le
    omega
  | succ depth enter =>
    rw [canonicalWithin]
    induction names generalizing met here n with
    | nil =>
      cases leads
      exact ⟨met, rfl, recorded⟩
    | cons name rest ih =>
      obtain ⟨ne_here, plainRest⟩ := not_or.mp (List.mem_cons.not.mp plain)
      cases leads with
      | up on => exact ih on plainRest inside recorded
      | stay => exact absurd rfl ne_here
      | file ne_up _ found =>
        rw [canonicalNames, if_neg (by simpa using ne_up)]
        simp only [Spelled.down, found]
        exact ⟨met, rfl, recorded⟩
      | directory ne_up _ found on =>
        rw [canonicalNames, if_neg (by simpa using ne_up)]
        simp only [Spelled.down, found]
        exact ih on plainRest inside recorded
      | @link m _ _ _ target _ ne_up _ found on =>
        -- The way inside the link ends at a place of its own, and the rest goes on from there.
        obtain ⟨k, l, mid, rfl, within, after⟩ := on.split
        have linked : tree.LinkLeads k (here ++ [name]) mid :=
          ⟨here, name, target, rfl, found, within.of_targetNames⟩
        rw [canonicalNames, if_neg (by simpa using ne_up)]
        simp only [Spelled.down, found, Spelled.linkStart_eq]
        split
        next known looked =>
          obtain ⟨_, _, rfl, linked'⟩ := recorded.known looked
          obtain ⟨_, rfl⟩ := linked.unique linked'
          exact ih after plainRest (inside.mono (by omega)) recorded
        next looked =>
          exact absurd (recorded.pending looked) (inside.notMem linked (by omega))
        next =>
          obtain ⟨met', entered, recorded'⟩ := enter within.of_targetNames
            (Path.here_notMem_names target) (inside.cons linked (by omega)) recorded.opening
            (by rw [List.length_cons]; omega)
          rw [entered, if_pos rfl]
          exact ih after plainRest (inside.mono (by omega)) (recorded'.closing linked)

/-- Where a path leads is its canonical path. -/
theorem Leads.canonical_eq (leads : tree.Leads n [] path place) (plain : "." ∉ path) :
    tree.canonical path = place := by
  have inside : tree.Inside n [] := ⟨List.nodup_nil, by simp⟩
  have recorded : tree.Recorded [] [] := ⟨by simp, by simp⟩
  obtain ⟨met, written, _⟩ := leads.canonicalWithin_eq plain inside recorded
    (show tree.linkCount < (tree.linkCount * 2 + 1) + 0 by omega)
  rw [canonical, canonicalFrom, Spelled.root]
  simp only [List.length_nil, Nat.zero_add, written]

/-- A path that leads to a file resolves to it. -/
lemma IsProper.resolve_of_leads (proper : tree.IsProper) (plain : "." ∉ names)
    (leads : tree.Leads n [] names place) {content : Bytes}
    (found : tree.entry? place = some (.file content)) : tree.resolve names = .ok place := by
  have self : tree.status place = .ok (.file content) :=
    status_eq_ok_iff.mpr ⟨place, proper.locate_file found, found⟩
  have written : tree.canonicalFrom Spelled.root names = place := leads.canonical_eq plain
  simp only [resolve, resolveFrom, written, self]

/-- A directory leads to itself. -/
lemma IsProper.locate_directory (proper : tree.IsProper) {directory : Path}
    (isDirectory : tree.entry? directory = some .directory) :
    tree.locate directory = .ok directory :=
  locate_eq_ok_iff.mpr ⟨0, Nat.zero_le _, proper.leads_directory isDirectory⟩

/-- A directory resolves to itself. -/
lemma IsProper.resolve_directory (proper : tree.IsProper) {directory : Path}
    (isDirectory : tree.entry? directory = some .directory) :
    tree.resolve directory = .ok directory := by
  have self : tree.status directory = .ok .directory :=
    status_eq_ok_iff.mpr ⟨directory, proper.locate_directory isDirectory, isDirectory⟩
  have plain : "." ∉ directory := fun mem =>
    (proper.normal_of_entry? isDirectory "." mem).1.ne_here rfl
  have written : tree.canonicalFrom Spelled.root directory = directory :=
    (proper.leads_directory isDirectory).canonical_eq plain
  simp only [resolve, resolveFrom, written, self]

end ExportCover.FileTree

namespace ExportCover.Disk

variable {disk : Disk} {place : Path} {content : Bytes}

/-- The names of a path from the root do not depend on the working directory. -/
lemma names_render (disk : Disk) (place : Path) :
    disk.names (Path.render place) = Path.names (Path.render place) :=
  if_pos (Path.isAbsolute_render place)

/-- A path from the root is resolved from there. -/
lemma resolve_render (disk : Disk) (place : Path) :
    disk.resolve (Path.render place) = disk.tree.resolve (Path.names (Path.render place)) :=
  if_pos (Path.isAbsolute_render place)

/-- A place is followed from any root in the same way. -/
lemma resolveFrom_render (disk : Disk) (root : String) (place : Path) :
    disk.resolveFrom root (Path.render place) = disk.resolve (Path.render place) :=
  congrArg disk.resolve (if_pos (Path.isAbsolute_render place))

/-- A place that can be read resolves to the file that is read. -/
lemma exists_home (proper : disk.tree.IsProper)
    (read : disk.read (Path.render place) = .ok content) :
    ∃ home, disk.resolve (Path.render place) = .ok home ∧
      disk.tree.entry? home = some (.file content) := by
  rw [Disk.read] at read
  split at read
  next content' found =>
    cases read
    rw [names_render] at found
    obtain ⟨home, located, found⟩ := FileTree.read_eq_ok_iff.mp found
    obtain ⟨n, _, leads⟩ := FileTree.locate_eq_ok_iff.mp located
    refine ⟨home, ?_, found⟩
    rw [resolve_render]
    exact proper.resolve_of_leads (Path.here_notMem_names _) leads found
  next => cases read

/-- A file is read at its own place and resolves to it. -/
lemma read_home (proper : disk.tree.IsProper)
    (found : disk.tree.entry? place = some (.file content)) :
    disk.read (Path.render place) = .ok content ∧ disk.resolve (Path.render place) = .ok place := by
  have names : Path.names (Path.render place) = place :=
    Path.names_render (proper.normal_of_entry? found)
  have read : disk.tree.read place = .ok content :=
    FileTree.read_eq_ok_iff.mpr ⟨place, proper.locate_file found, found⟩
  constructor
  · rw [Disk.read, names_render, names, read]
  · rw [resolve_render, names]
    exact proper.resolve_of_leads (names ▸ Path.here_notMem_names _) (proper.leads_file found) found

end ExportCover.Disk
