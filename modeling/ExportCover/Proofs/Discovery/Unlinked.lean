import ExportCover.Proofs.Discovery.Levels
import ExportCover.Proofs.Discovery.Pruning

/-!
# Two walks over a tree without links

In a tree without links every route leads to the names that it goes through (`Route.place_eq`). So
the search for test files, level by level with every directory entered once, and the search for
source files, down into each directory in turn, find the same files under the same endings
(`testFiles_perm_sourceFiles`).
-/

namespace ExportCover.Discovery

open FileTree

variable {tree : FileTree} {query : Query} {exclusions suffixes : List String}
  {home place file : Path} {names : List String} {trail : List Path}

section Routes

/-- A route goes through all names that lead to a directory, if none of them is excluded. -/
lemma exists_route (proper : tree.IsProper) (included : ∀ name ∈ names, name ∉ exclusions)
    (isDirectory : tree.entry? (home ++ names) = some .directory) :
    ∃ trail, Route tree exclusions home names ((home ++ names) :: trail) := by
  induction names using List.reverseRecOn with
  | nil => exact ⟨[], by simpa using Route.start⟩
  | append_singleton names name ih =>
    rw [← List.append_assoc] at isDirectory ⊢
    obtain ⟨above, nameIncluded⟩ : (∀ name ∈ names, name ∉ exclusions) ∧ name ∉ exclusions := by
      simpa [or_imp, forall_and] using included
    obtain ⟨trail, route⟩ := ih above (proper.wellFormed.entry?_parent isDirectory)
    have inside : name ∈ tree.namesIn (home ++ names) := mem_namesIn_iff.mpr ⟨_, isDirectory⟩
    obtain ⟨ne_up, ne_here⟩ := proper.step_of_mem inside
    have leads : tree.Leads 0 (home ++ names) [name] (home ++ names ++ [name]) :=
      .directory ne_up ne_here isDirectory (.done _)
    exact ⟨_, .enter route inside nameIncluded leads isDirectory⟩

/-- A route without links leads to a directory. -/
lemma Route.isDirectory (isDirectory : tree.entry? home = some .directory)
    (route : Route tree exclusions home names (place :: trail)) :
    tree.entry? place = some .directory := by
  cases route with
  | start => exact isDirectory
  | enter _ _ _ _ entered => exact entered

variable (linkFree : tree.linkCount = 0)
include linkFree

/-- No entry of a tree without links is a link. -/
lemma entry?_ne_link {path : Path} {target : String} : tree.entry? path ≠ some (.link target) := by
  intro found
  have ne_root : path ≠ [] := by
    rintro rfl
    cases found
  have none := List.countP_eq_zero.mp linkFree _ (mem_entries ne_root found)
  exact none rfl

/-- Without links, whatever has the ending of a test file and is no directory is a file. -/
lemma hasRegularFiles_of_linkFree : HasRegularFiles tree suffixes :=
  fun _ _ _ found _ => absurd found (entry?_ne_link linkFree)

/-- A route leads to the names that it goes through. -/
lemma Route.place_eq (proper : tree.IsProper)
    (route : Route tree exclusions home names (place :: trail)) :
    place = home ++ names ∧ ∀ name ∈ names, name ∉ exclusions := by
  generalize entered : place :: trail = trail' at route
  induction route generalizing place trail with
  | start =>
    obtain ⟨rfl, -⟩ := List.cons.inj entered
    simp
  | @enter names directory trail' name n next route inside included leads _ ih =>
    obtain ⟨rfl, -⟩ := List.cons.inj entered
    obtain ⟨rfl, above⟩ := ih rfl
    obtain ⟨ne_up, ne_here⟩ := proper.step_of_mem inside
    obtain rfl | ⟨target, linked⟩ := leads.eq_or_link ne_up ne_here
    · refine ⟨List.append_assoc _ _ _, ?_⟩
      simpa [or_imp, forall_and] using ⟨above, included⟩
    · exact absurd linked (entry?_ne_link linkFree)

/-- The paths of all routes can be followed. -/
lemma followsRoutes_of_linkFree (proper : tree.IsProper)
    (isDirectory : tree.entry? home = some .directory) :
    FollowsRoutes tree exclusions home home := by
  intro names directory trail route _ lost
  have here := route.isDirectory isDirectory
  obtain ⟨rfl, -⟩ := route.place_eq linkFree proper
  cases lost.symm.trans (proper.locate_directory here)

/-- Test files are the files among the entries that a pruning walk lists. -/
lemma isTestBelow_iff (proper : tree.IsProper) :
    IsTestBelow tree suffixes exclusions home file ↔
      ∃ names name, IsBelow tree exclusions home names name ∧ suffixes.any (Text.endsWith name) ∧
        file = home ++ names ++ [name] := by
  constructor
  · rintro ⟨names, directory, trail, name, content, route, standing, ending, rfl⟩
    obtain ⟨rfl, included⟩ := route.place_eq linkFree proper
    have status := status_eq_ok_iff.mpr ⟨_, proper.locate_file standing, standing⟩
    refine ⟨names, name, ⟨included, ⟨_, standing⟩, ?_⟩, ending, rfl⟩
    rw [isDirectory, status]
  · rintro ⟨names, name, ⟨included, ⟨entry, standing⟩, noDirectory⟩, ending, rfl⟩
    have above := proper.wellFormed.entry?_parent standing
    obtain ⟨trail, route⟩ := exists_route proper included above
    cases entry with
    | file content => exact ⟨names, _, trail, name, content, route, standing, ending, rfl⟩
    | directory =>
      have status := status_eq_ok_iff.mpr ⟨_, proper.locate_directory standing, standing⟩
      rw [isDirectory, status] at noDirectory
      cases noDirectory
    | link target => exact absurd standing (entry?_ne_link linkFree)

end Routes

/-- In a tree without links the search for test files and the search for source files below a
directory find the same files, each of them once. The first reports them in the order of its walk,
the second sorted by their paths. -/
theorem testFiles_perm_sourceFiles (disk : Disk) (suffixes exclusions : List String) {home : Path}
    (proper : disk.tree.IsProper) (linkFree : disk.tree.linkCount = 0)
    (isDirectory : disk.tree.entry? home = some .directory) :
    ∃ tests sources,
      (testFiles disk (Path.render home) ⟨.ofTexts suffixes, exclusions⟩).1 = .ok tests ∧
      sourceFiles disk (Path.render home) (.ok (.ofTexts suffixes)) exclusions = .ok sources ∧
      (tests.map Path.render).Perm sources ∧ (tests.map Path.render).Nodup ∧
      InWalkOrder tests ∧ sources.Pairwise (· < ·) := by
  have normal : Path.IsNormal home := proper.normal_of_entry? isDirectory
  have plain : "." ∉ home := fun mem => (normal "." mem).1.ne_here rfl
  have start : Path.ofText disk.cwd (Path.render home) = home := Path.ofText_render normal
  have located : disk.tree.locate home = .ok home := proper.locate_directory isDirectory
  have regular : HasRegularFiles disk.tree suffixes := hasRegularFiles_of_linkFree linkFree
  have followed : FollowsRoutes disk.tree exclusions home home :=
    followsRoutes_of_linkFree linkFree proper isDirectory
  have nodup : ((sourcesAt disk.tree home suffixes exclusions).map Path.render).Nodup :=
    nodup_render_sourcesAt proper isDirectory
  -- Neither list repeats a file, so that it is enough to compare their members.
  have members : ∀ file, file ∈ (visits disk.tree ⟨.ofTexts suffixes, exclusions⟩ [] [home]).flatMap
      (·.files disk.tree ⟨.ofTexts suffixes, exclusions⟩) ↔
        file ∈ sourcesAt disk.tree home suffixes exclusions := by
    intro file
    rw [mem_sourcesAt_iff proper isDirectory, ← isTestBelow_iff linkFree proper]
    constructor
    · exact fun mem => isTestBelow_of_mem proper rfl plain located regular mem
    · exact fun below =>
        mem_of_isTestBelow proper rfl plain located regular isDirectory followed below
  have same := (List.perm_ext_iff_of_nodup (nodup_reports proper rfl plain located regular)
    nodup.of_map).mpr members
  have tests : (testFiles disk (Path.render home) ⟨.ofTexts suffixes, exclusions⟩).1 = .ok _ :=
    testFiles_eq rfl disk (Path.render home)
  rw [start] at tests
  refine ⟨_, _, tests, sourceFiles_directory proper isDirectory, ?_, ?_, ?_, ?_⟩
  · exact (same.map _).trans (List.mergeSort_perm _ _).symm
  · exact (same.map _).symm.nodup nodup
  · refine inWalkOrder_reports proper rfl plain regular located fun visit mem => ?_
    obtain ⟨names, trail, reached⟩ := exists_isReached located visit mem
    exact (reached.route.place_eq linkFree proper).1.trans reached.taken.symm
  · exact Command.pairwise_lt_mergeSort nodup

/-- A project with a directory that is named like a test file, and installed packages below it. -/
def misleading : Disk :=
  ⟨⟨[(["p"], .directory), (["p", "c.test.ts"], .file []), (["p", "b.test.ts"], .directory),
      (["p", "b.test.ts", "z.test.ts"], .file []), (["p", "b.test.ts", "node_modules"], .directory),
      (["p", "b.test.ts", "node_modules", "y.test.ts"], .file [])]⟩, []⟩

/-- Both searches enter the directory that is named like a test file and not the packages. -/
theorem testFiles_perm_sourceFiles_misleading : ∃ tests,
    (testFiles misleading "/p" ⟨.ofTexts [".test.ts"], ["node_modules"]⟩).1 = .ok tests ∧
      (tests.map Path.render).Perm ["/p/c.test.ts", "/p/b.test.ts/z.test.ts"] := by
  have proper : misleading.tree.IsProper := by decide +kernel
  have isDirectory : misleading.tree.entry? ["p"] = some .directory := by decide +kernel
  obtain ⟨tests, sources, found, chosen, same, -⟩ := testFiles_perm_sourceFiles misleading
    [".test.ts"] ["node_modules"] proper (by decide +kernel) isDirectory
  have selected : sourcesAt misleading.tree ["p"] [".test.ts"] ["node_modules"]
      = [["p", "c.test.ts"], ["p", "b.test.ts", "z.test.ts"]] := by decide +kernel
  rw [sourceFiles_directory proper isDirectory, selected] at chosen
  cases chosen
  exact ⟨tests, found, same.trans (List.mergeSort_perm _ _)⟩

end ExportCover.Discovery
