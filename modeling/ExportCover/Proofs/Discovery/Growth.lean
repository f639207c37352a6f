import ExportCover.Proofs.Discovery.Reach
import ExportCover.Proofs.FileTree.Growth

/-!
# Walks through growing trees

Added entries change the order of a walk, and a link that led nowhere may now lead to a directory,
so that the walk comes to directories along other paths than before. It still lists every directory
that it listed, and reports every test file, as long as the operating system follows the entries of
these directories along the new paths (`mem_files_of_grows`).
-/

namespace ExportCover.Discovery

open FileTree

/-- Where two walks list one directory, the operating system follows along the path of the second
walk whatever entries it follows along the path of the first. -/
def StaysFollowed (tree tree' : FileTree) (query : Query) (start : Path) : Prop :=
  ∀ visit ∈ visits tree query [] [start], ∀ visit' ∈ visits tree' query [] [start],
    visit'.place = visit.place → ∀ name ∈ tree.namesIn visit.place, ∀ place,
      tree.locate (visit.taken ++ [name]) = .ok place →
      tree'.locate (visit'.taken ++ [name]) ≠ .error .tooManyLinks

variable {tree tree' : FileTree} {query : Query} {start place : Path} {visit visit' : Visit}
  {name : String}

/-- A visit is to a directory that its path leads to. -/
lemma located_of_mem_visits {visited queue : List Path}
    (mem : visit ∈ visits tree query visited queue) :
    tree.locate visit.taken = .ok visit.place ∧ tree.entry? visit.place = some .directory := by
  fun_induction visits tree query visited queue with
  | case1 => cases mem
  | case2 visited directory queue error lost ih => exact ih mem
  | case3 visited directory queue place located old ih => exact ih mem
  | case4 visited directory queue place located new isDirectory first ih =>
    obtain rfl | mem := List.mem_cons.mp mem
    · exact ⟨located, isDirectoryAt_iff.mp isDirectory⟩
    · exact ih mem
  | case5 visited directory queue place located new isFile ih => exact ih mem

/-- A walk that visits something starts at a place that exists. -/
lemma exists_located_start (mem : visit ∈ visits tree query [] [start]) :
    ∃ home, tree.locate start = .ok home := by
  cases located : tree.locate start with
  | ok home => exact ⟨home, rfl⟩
  | error error =>
    rw [visits_lost located, visits] at mem
    cases mem

/-- Nothing is lost where the second walk takes the paths of the first one. -/
lemma staysFollowed_of_taken (grows : tree.GrowsTo tree')
    (taken : ∀ visit ∈ visits tree query [] [start], ∀ visit' ∈ visits tree' query [] [start],
      visit'.place = visit.place → visit'.taken = visit.taken) :
    StaysFollowed tree tree' query start := by
  intro visit mem visit' mem' same name _ place located failed
  rw [taken visit mem visit' mem' same, grows.locate_eq_ok located] at failed
  cases failed

section

variable (grows : tree.GrowsTo tree') (followed : StaysFollowed tree tree' query start)
include grows followed

/-- An entry of a directory that both walks list leads to the same place on the second walk. -/
lemma StaysFollowed.locate_eq (mem : visit ∈ visits tree query [] [start])
    (mem' : visit' ∈ visits tree' query [] [start]) (same : visit'.place = visit.place)
    (inside : name ∈ tree.namesIn visit.place)
    (located : tree.locate (visit.taken ++ [name]) = .ok place) :
    tree'.locate (visit'.taken ++ [name]) = .ok place := by
  obtain ⟨here, _⟩ := located_of_mem_visits mem
  obtain ⟨here', isDirectory'⟩ := located_of_mem_visits mem'
  obtain ⟨n, _, leads⟩ := exists_leads_last here located
  rw [← same] at leads
  exact locate_last here' isDirectory' (leads.grow grows)
    (followed visit mem visit' mem' same name inside place located)

/-- A path that waits in the first walk leads to a directory that the second walk lists. -/
lemma StaysFollowed.exists_visit_of_descend (mem : visit ∈ visits tree query [] [start])
    (mem' : visit' ∈ visits tree' query [] [start]) (same : visit'.place = visit.place)
    {path : Path} (descends : path ∈ directoriesOf (visit.findings tree query))
    (located : tree.locate path = .ok place) (isDirectory : tree.entry? place = some .directory) :
    ∃ next ∈ visits tree' query [] [start], next.place = place := by
  obtain ⟨name, inside, included, _, rfl⟩ := mem_directoriesOf_findings.mp descends
  have located' := followed.locate_eq grows mem mem' same inside located
  have isDirectory' := grows.kept isDirectory
  have status' := status_eq_ok_iff.mpr ⟨place, located', isDirectory'⟩
  have inside' : name ∈ tree'.namesIn visit'.place := same ▸ grows.mem_namesIn inside
  have descends' := mem_directoriesOf_findings.mpr ⟨name, inside', included, status', rfl⟩
  have listed := isListed_of_descend mem' descends' located' (isDirectoryAt_iff.mpr isDirectory')
  exact listed.resolve_left List.not_mem_nil

/-- Every directory that the first walk lists is listed by the second. -/
lemma StaysFollowed.exists_visit : ∀ visit ∈ visits tree query [] [start],
    ∃ visit' ∈ visits tree' query [] [start], visit'.place = visit.place := by
  -- What waits in the first walk leads to directories that the second walk lists at some time.
  refine @forall_visits tree query [] [start] (visits tree query [] [start])
    (fun _ path => ∀ place, tree.locate path = .ok place → tree.entry? place = some .directory →
      ∃ visit' ∈ visits tree' query [] [start], visit'.place = place)
    (fun visit => ∃ visit' ∈ visits tree' query [] [start], visit'.place = visit.place)
    ?_ ?_ ?_ ?_
  · exact fun waits => waits
  · intro visited directory place mem waits located new isDirectory
    obtain ⟨visit', mem', same⟩ := waits place located (isDirectoryAt_iff.mp isDirectory)
    refine ⟨⟨visit', mem', same⟩, fun path descends next located' isDirectory' => ?_⟩
    exact followed.exists_visit_of_descend grows mem mem' same descends located' isDirectory'
  · exact List.Subset.refl _
  · intro path mem place located isDirectory
    cases List.mem_singleton.mp mem
    have listed : IsListed tree' query [] [start] place :=
      isListed_of_mem_queue List.mem_cons_self (grows.locate_eq_ok located)
        (isDirectoryAt_iff.mpr (grows.kept isDirectory))
    exact listed.resolve_left List.not_mem_nil

/-- Every test file that the first walk reports is reported by the second. -/
theorem StaysFollowed.mem_files (proper : tree.IsProper) (proper' : tree'.IsProper)
    (whole : query.suffixes.broken = false) (plain : "." ∉ start) {file : Path}
    (found : file ∈ (visits tree query [] [start]).flatMap (·.files tree query)) :
    file ∈ (visits tree' query [] [start]).flatMap (·.files tree' query) ∧
      ∃ content, tree.entry? file = some (.file content) := by
  obtain ⟨visit, mem, found⟩ := List.mem_flatMap.mp found
  obtain ⟨visit', mem', same⟩ := followed.exists_visit grows visit mem
  obtain ⟨home, located⟩ := exists_located_start mem
  obtain ⟨names, trail, reached⟩ := exists_isReached located visit mem
  obtain ⟨names', trail', reached'⟩ := exists_isReached (grows.locate_eq_ok located) visit' mem'
  obtain ⟨name, inside, ending, leads, content, standing⟩ :=
    (mem_files_iff_leads proper whole plain reached).mp found
  refine ⟨List.mem_flatMap.mpr ⟨visit', mem', ?_⟩, content, standing⟩
  exact (mem_files_iff_leads proper' whole plain reached').mpr
    ⟨name, same ▸ grows.mem_namesIn inside, ending,
      followed.locate_eq grows mem mem' same inside leads, content, grows.kept standing⟩

end

end ExportCover.Discovery
