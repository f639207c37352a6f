import Mathlib.Data.List.Nodup
import ExportCover.Proofs.Discovery.Walk

/-!
# What a walk reaches

A `Route` goes from directory to directory through entries that are not excluded, with every link
followed. The test files that a walk reports stand in directories at the end of routes, each of them
once, and they are all the test files in such directories as long as the operating system follows
the paths that the walk takes (`testFiles_exact`). The paths of a walk grow with every link that it
passes, so that it can lose a directory behind many links although each of its steps could be taken
(`testFiles_distant`).
-/

namespace ExportCover.Discovery

open FileTree

/-- A route from a directory through entries that are not excluded, links followed: the names of the
entries, and the directories that it enters, the last one first. -/
inductive Route (tree : FileTree) (exclusions : List String) (home : Path) :
    List String → List Path → Prop where
  | start : Route tree exclusions home [] [home]
  | enter {names directory trail name n place}
    (route : Route tree exclusions home names (directory :: trail))
    (listed : name ∈ tree.namesIn directory) (included : name ∉ exclusions)
    (leads : tree.Leads n directory [name] place)
    (isDirectory : tree.entry? place = some .directory) :
    Route tree exclusions home (names ++ [name]) (place :: directory :: trail)

/-- A test file in a directory at the end of a route. -/
def IsTestBelow (tree : FileTree) (suffixes exclusions : List String) (home file : Path) : Prop :=
  ∃ names directory trail name content, Route tree exclusions home names (directory :: trail) ∧
    tree.entry? (directory ++ [name]) = some (.file content) ∧
    suffixes.any (Text.endsWith name) ∧ file = directory ++ [name]

/-- The operating system follows the path of every route that enters no directory twice. -/
def FollowsRoutes (tree : FileTree) (exclusions : List String) (start home : Path) : Prop :=
  ∀ names directory trail, Route tree exclusions home names (directory :: trail) →
    (directory :: trail).Nodup → tree.locate (start ++ names) ≠ .error .tooManyLinks

variable {tree : FileTree} {query : Query} {start home directory place : Path} {name : String}
  {names : List String} {trail : List Path} {visit : Visit}

/-- A directory is listed as one. -/
lemma isDirectoryAt_iff :
    tree.isDirectoryAt place = true ↔ tree.entry? place = some .directory := by
  simp [isDirectoryAt]

/-- A walk descends into what leads to a directory and is not excluded. -/
lemma inspect_eq_descend_iff {path : Path} : inspect tree query directory name = .descend path ↔
    name ∉ query.exclusions ∧ tree.status (directory ++ [name]) = .ok .directory ∧
      path = directory ++ [name] := by
  rw [inspect]
  split
  next found =>
    split
    next excluded => simpa using fun included => absurd (by simpa using excluded) included
    next included => simp [found, eq_comm, show name ∉ query.exclusions by simpa using included]
  next failed => split <;> simp [failed]
  next failed => simp [failed]
  next entry other found =>
    split <;> simpa [found] using fun _ same => absurd same other

/-- The directories to go on to are those in the place under names that are not excluded. -/
lemma mem_directoriesOf_findings {path : Path} :
    path ∈ directoriesOf (visit.findings tree query) ↔
      ∃ name ∈ tree.namesIn visit.place, name ∉ query.exclusions ∧
        tree.status (visit.taken ++ [name]) = .ok .directory ∧ path = visit.taken ++ [name] := by
  rw [directoriesOf, Visit.findings, List.filterMap_map, List.mem_filterMap]
  refine exists_congr fun name => and_congr_right fun _ => ?_
  rw [← inspect_eq_descend_iff]
  cases finding : inspect tree query visit.taken name <;> simp [finding]

/-- A visit at the end of a route that enters no directory twice. The route only enters directories
of visits. -/
structure Visit.IsReached (tree : FileTree) (query : Query) (start home : Path) (all : List Visit)
    (visit : Visit) (names : List String) (trail : List Path) : Prop where
  taken : visit.taken = start ++ names
  located : tree.locate visit.taken = .ok visit.place
  isDirectory : tree.entry? visit.place = some .directory
  route : Route tree query.exclusions home names (visit.place :: trail)
  nodup : (visit.place :: trail).Nodup
  listed : ∀ directory ∈ trail, ∃ other ∈ all, other.place = directory

/-- A path that waits with the directories listed so far: wherever it leads, a route leads there
through some of them. -/
def Waits (tree : FileTree) (query : Query) (start home : Path) (all : List Visit)
    (visited : List Path) (path : Path) : Prop :=
  ∃ names, path = start ++ names ∧
    ∀ place, tree.locate path = .ok place → tree.entry? place = some .directory →
      ∃ trail, trail ⊆ visited ∧ trail.Nodup ∧
        Route tree query.exclusions home names (place :: trail) ∧
        ∀ directory ∈ trail, ∃ other ∈ all, other.place = directory

/-- A path that waits still does after another place is visited. -/
lemma Waits.grow {all : List Visit} {visited : List Path} {path : Path}
    (waits : Waits tree query start home all visited path) :
    Waits tree query start home all (place :: visited) path := by
  obtain ⟨names, taken, waits⟩ := waits
  refine ⟨names, taken, fun place' located isDirectory => ?_⟩
  obtain ⟨trail, within, rest⟩ := waits place' located isDirectory
  exact ⟨trail, List.subset_cons_of_subset _ within, rest⟩

/-- A step of the walk: the next path leads along a route to a new directory, and the paths to the
directories in it wait after that. -/
lemma Waits.step {all : List Visit} {visited : List Path} (mem : ⟨directory, place⟩ ∈ all)
    (waits : Waits tree query start home all visited directory)
    (located : tree.locate directory = .ok place) (new : place ∉ visited)
    (isDirectory : tree.isDirectoryAt place = true) :
    (∃ names trail, Visit.IsReached tree query start home all ⟨directory, place⟩ names trail) ∧
      ∀ path ∈ directoriesOf (Visit.findings tree query ⟨directory, place⟩),
        Waits tree query start home all (place :: visited) path := by
  rw [isDirectoryAt_iff] at isDirectory
  obtain ⟨names, rfl, waits⟩ := waits
  obtain ⟨trail, within, nodup, route, listed⟩ := waits place located isDirectory
  have nodup : (place :: trail).Nodup := List.nodup_cons.mpr ⟨fun old => new (within old), nodup⟩
  refine ⟨⟨names, trail, rfl, located, isDirectory, route, nodup, listed⟩, ?_⟩
  intro path descends
  obtain ⟨name, inPlace, included, status, rfl⟩ := mem_directoriesOf_findings.mp descends
  refine ⟨names ++ [name], List.append_assoc _ _ _, fun next located' isDirectory' => ?_⟩
  obtain ⟨n, _, leads⟩ := exists_leads_last located located'
  refine ⟨place :: trail, List.cons_subset_cons _ within, nodup,
    .enter route inPlace included leads isDirectory', ?_⟩
  exact List.forall_mem_cons.mpr ⟨⟨_, mem, rfl⟩, listed⟩

/-- Every directory that a walk lists lies at the end of a route. -/
lemma exists_isReached (located : tree.locate start = .ok home) :
    ∀ visit ∈ visits tree query [] [start], ∃ names trail,
      visit.IsReached tree query start home (visits tree query [] [start]) names trail := by
  refine forall_visits Waits.grow Waits.step (List.Subset.refl _) fun path mem => ?_
  cases List.mem_singleton.mp mem
  refine ⟨[], (List.append_nil _).symm, fun place located' _ => ?_⟩
  cases located.symm.trans located'
  exact ⟨[], List.nil_subset _, List.nodup_nil, .start, by simp⟩

/-- A directory at the end of a route is listed if the paths of all routes can be followed. -/
lemma exists_visit (located : tree.locate start = .ok home)
    (isDirectory : tree.entry? home = some .directory)
    (followed : FollowsRoutes tree query.exclusions start home)
    (route : Route tree query.exclusions home names (directory :: trail)) :
    ∃ visit ∈ visits tree query [] [start], visit.place = directory := by
  generalize entered : directory :: trail = trail' at route
  induction route generalizing directory trail with
  | start =>
    cases entered
    have listed : IsListed tree query [] [start] home :=
      isListed_of_mem_queue List.mem_cons_self located (isDirectoryAt_iff.mpr isDirectory)
    exact listed.resolve_left List.not_mem_nil
  | @enter names above trail' name n place route inAbove included leads isDirectory' ih =>
    cases entered
    obtain ⟨visit, mem, rfl⟩ := ih rfl
    obtain ⟨names', trail, reached⟩ := exists_isReached located visit mem
    -- The walk went its own way to the directory above. Either that way came through the directory
    -- already, or it goes on to it.
    by_cases old : place ∈ visit.place :: trail
    · obtain rfl | old := List.mem_cons.mp old
      · exact ⟨visit, mem, rfl⟩
      · exact reached.listed place old
    have route' := Route.enter reached.route inAbove included leads isDirectory'
    have follow := followed _ _ _ route' (List.nodup_cons.mpr ⟨old, reached.nodup⟩)
    rw [← List.append_assoc, ← reached.taken] at follow
    have located' := locate_last reached.located reached.isDirectory leads follow
    have status := status_eq_ok_iff.mpr ⟨_, located', isDirectory'⟩
    have descends := mem_directoriesOf_findings.mpr ⟨name, inAbove, included, status, rfl⟩
    have listed := isListed_of_descend mem descends located' (isDirectoryAt_iff.mpr isDirectory')
    exact listed.resolve_left List.not_mem_nil

section Files

/-- No name on a route is `.`. -/
lemma Route.here_notMem (proper : tree.IsProper) {exclusions : List String}
    (route : Route tree exclusions home names trail) : "." ∉ names := by
  induction route with
  | start => exact List.not_mem_nil
  | enter _ listed _ _ _ ih =>
    rw [List.mem_append, List.mem_singleton, not_or]
    exact ⟨ih, (proper.step_of_mem listed).2.symm⟩

/-- A test file is found under a name with one of the endings that leads to no directory. -/
lemma file?_inspect_eq_some_iff (whole : query.suffixes.broken = false) {file : Path} :
    (inspect tree query directory name).file? = some file ↔
      query.suffixes.texts.any (Text.endsWith name) ∧
        (∃ entry, tree.status (directory ++ [name]) = .ok entry ∧ entry ≠ .directory) ∧
        tree.canonical (directory ++ [name]) = file := by
  rw [inspect, hasSuffix_eq whole]
  split
  next found => split <;> simp [Finding.file?, found]
  next failed => simp [Finding.file?, failed]
  next failed => simp [Finding.file?, failed]
  next entry other found =>
    have ne : entry ≠ .directory := other
    cases query.suffixes.texts.any (Text.endsWith name) <;> simp [Finding.file?, found, ne]

variable {all : List Visit} {file : Path} (proper : tree.IsProper)
  (whole : query.suffixes.broken = false) (plain : "." ∉ start)
  (reached : visit.IsReached tree query start home all names trail)
include proper whole plain reached

/-- What a visit reports for a name in its directory is the file that the name leads to. -/
lemma file?_inspect_iff_leads (inside : name ∈ tree.namesIn visit.place) :
    (inspect tree query visit.taken name).file? = some file ↔
      query.suffixes.texts.any (Text.endsWith name) ∧
        tree.locate (visit.taken ++ [name]) = .ok file ∧
        ∃ content, tree.entry? file = some (.file content) := by
  have plainPath : "." ∉ visit.taken ++ [name] := by
    rw [reached.taken, List.mem_append, List.mem_append, List.mem_singleton, not_or, not_or]
    exact ⟨⟨plain, reached.route.here_notMem proper⟩, (proper.step_of_mem inside).2.symm⟩
  rw [file?_inspect_eq_some_iff whole]
  refine and_congr_right fun _ => ?_
  constructor
  · rintro ⟨⟨entry, status, ne⟩, rfl⟩
    obtain ⟨place, located, standing⟩ := status_eq_ok_iff.mp status
    obtain ⟨n, _, leads⟩ := locate_eq_ok_iff.mp located
    rw [leads.canonical_eq plainPath]
    refine ⟨located, (proper.wellFormed.leads_ends leads rfl).resolve_left fun isDirectory => ?_⟩
    cases standing.symm.trans isDirectory
    exact ne rfl
  · rintro ⟨located, content, standing⟩
    obtain ⟨n, _, leads⟩ := locate_eq_ok_iff.mp located
    have status := status_eq_ok_iff.mpr ⟨file, located, standing⟩
    exact ⟨⟨_, status, by simp⟩, leads.canonical_eq plainPath⟩

/-- The test files found on a visit are where the names with an ending lead. -/
lemma mem_files_iff_leads : file ∈ visit.files tree query ↔
    ∃ name ∈ tree.namesIn visit.place, query.suffixes.texts.any (Text.endsWith name) ∧
      tree.locate (visit.taken ++ [name]) = .ok file ∧
      ∃ content, tree.entry? file = some (.file content) := by
  rw [Visit.files_eq whole, Visit.findings, List.filterMap_map, List.mem_filterMap]
  exact exists_congr fun name => and_congr_right fun inside =>
    file?_inspect_iff_leads proper whole plain reached inside

end Files

section Exact

/-- Files whose names end like those of test files are regular: no link with such a name leads to a
file. -/
def HasRegularFiles (tree : FileTree) (suffixes : List String) : Prop :=
  ∀ directory name target, tree.entry? (directory ++ [name]) = some (.link target) →
    suffixes.any (Text.endsWith name) → tree.isFile (directory ++ [name]) = false

/-- Where files are regular, a name with the ending of a test file only leads to a file of that
name. -/
lemma HasRegularFiles.eq_of_leads {suffixes : List String} {taken file : Path} {content : Bytes}
    (regular : HasRegularFiles tree suffixes) (proper : tree.IsProper)
    (located : tree.locate taken = .ok directory)
    (isDirectory : tree.entry? directory = some .directory)
    (inside : name ∈ tree.namesIn directory) (ending : suffixes.any (Text.endsWith name))
    (found : tree.locate (taken ++ [name]) = .ok file)
    (standing : tree.entry? file = some (.file content)) : file = directory ++ [name] := by
  obtain ⟨ne_up, ne_here⟩ := proper.step_of_mem inside
  obtain ⟨n, le, leads⟩ := exists_leads_last located found
  obtain same | ⟨target, linked⟩ := leads.eq_or_link ne_up ne_here
  · exact same
  -- The link also leads to the file if it is followed from the directory itself.
  have direct : tree.Leads n [] (directory ++ [name]) file := by
    simpa using (proper.leads_directory isDirectory).append isDirectory leads
  have status := status_eq_ok_iff.mpr ⟨file, locate_eq_ok_iff.mpr ⟨n, le, direct⟩, standing⟩
  have noFile := regular directory name target linked ending
  simp [isFile, status] at noFile

variable {all : List Visit} {file : Path} (proper : tree.IsProper)
  (whole : query.suffixes.broken = false) (plain : "." ∉ start)
  (reached : visit.IsReached tree query start home all names trail)
  (regular : HasRegularFiles tree query.suffixes.texts)
include proper whole plain reached regular

/-- The test files that a visit reports are those in its directory. -/
lemma mem_files_iff : file ∈ visit.files tree query ↔
    ∃ name content, tree.entry? (visit.place ++ [name]) = some (.file content) ∧
      query.suffixes.texts.any (Text.endsWith name) ∧ file = visit.place ++ [name] := by
  rw [mem_files_iff_leads proper whole plain reached]
  constructor
  · rintro ⟨name, inside, ending, found, content, standing⟩
    cases regular.eq_of_leads proper reached.located reached.isDirectory inside ending found
      standing
    exact ⟨name, content, standing, ending, rfl⟩
  · rintro ⟨name, content, standing, ending, rfl⟩
    have inside : name ∈ tree.namesIn visit.place := mem_namesIn_iff.mpr ⟨_, standing⟩
    obtain ⟨ne_up, ne_here⟩ := proper.step_of_mem inside
    exact ⟨name, inside, ending, locate_last_direct reached.located reached.isDirectory
      (.file ne_up ne_here standing), content, standing⟩

/-- The test files that a visit reports stand to each other as their names do. -/
lemma pairwise_files {related : Path → Path → Prop}
    (names : (tree.namesIn visit.place).Pairwise fun a b =>
      related (visit.place ++ [a]) (visit.place ++ [b])) :
    (visit.files tree query).Pairwise related := by
  rw [Visit.files_eq whole, Visit.findings, List.filterMap_map, List.pairwise_filterMap]
  refine names.imp_of_mem fun inside inside' together file found file' found' => ?_
  obtain ⟨ending, found, _, standing⟩ :=
    (file?_inspect_iff_leads proper whole plain reached inside).mp found
  obtain ⟨ending', found', _, standing'⟩ :=
    (file?_inspect_iff_leads proper whole plain reached inside').mp found'
  cases regular.eq_of_leads proper reached.located reached.isDirectory inside ending found standing
  cases regular.eq_of_leads proper reached.located reached.isDirectory inside' ending' found'
    standing'
  exact together

/-- No test file is found twice on one visit. -/
lemma nodup_files : (visit.files tree query).Nodup := by
  have nodup : (tree.namesIn visit.place).Nodup := proper.wellFormed.nodup_namesIn
  refine pairwise_files proper whole plain reached regular (nodup.imp fun apart same => apart ?_)
  simpa using same

/-- Visits of different directories report different files. -/
lemma disjoint_files {other : Visit} {names' : List String} {trail' : List Path}
    (reached' : other.IsReached tree query start home all names' trail')
    (apart : visit.place ≠ other.place) :
    (visit.files tree query).Disjoint (other.files tree query) := by
  intro file mem mem'
  obtain ⟨_, _, _, _, rfl⟩ := (mem_files_iff proper whole plain reached regular).mp mem
  obtain ⟨_, _, _, _, same⟩ := (mem_files_iff proper whole plain reached' regular).mp mem'
  exact apart (List.append_inj' same rfl).1

end Exact

section Reports

variable {file : Path} (proper : tree.IsProper) (whole : query.suffixes.broken = false)
  (plain : "." ∉ start) (located : tree.locate start = .ok home)
  (regular : HasRegularFiles tree query.suffixes.texts)
include proper whole plain located regular

/-- No file is reported twice. -/
lemma nodup_reports : ((visits tree query [] [start]).flatMap (·.files tree query)).Nodup := by
  refine List.nodup_flatMap.mpr ⟨fun visit mem => ?_, ?_⟩
  · obtain ⟨names, trail, reached⟩ := exists_isReached located visit mem
    exact nodup_files proper whole plain reached regular
  · refine (List.pairwise_map.mp nodup_visits.1).imp_of_mem fun mem mem' apart => ?_
    obtain ⟨_, _, reached⟩ := exists_isReached located _ mem
    obtain ⟨_, _, reached'⟩ := exists_isReached located _ mem'
    exact disjoint_files proper whole plain reached regular reached' apart

/-- Only test files at the end of routes are reported. -/
lemma isTestBelow_of_mem
    (mem : file ∈ (visits tree query [] [start]).flatMap (·.files tree query)) :
    IsTestBelow tree query.suffixes.texts query.exclusions home file := by
  obtain ⟨visit, mem, found⟩ := List.mem_flatMap.mp mem
  obtain ⟨names, trail, reached⟩ := exists_isReached located visit mem
  obtain ⟨name, content, standing, ending, rfl⟩ :=
    (mem_files_iff proper whole plain reached regular).mp found
  exact ⟨names, visit.place, trail, name, content, reached.route, standing, ending, rfl⟩

/-- All test files at the end of routes are reported if the paths of the routes can be followed. -/
lemma mem_of_isTestBelow (isDirectory : tree.entry? home = some .directory)
    (followed : FollowsRoutes tree query.exclusions start home)
    (below : IsTestBelow tree query.suffixes.texts query.exclusions home file) :
    file ∈ (visits tree query [] [start]).flatMap (·.files tree query) := by
  obtain ⟨names, directory, trail, name, content, route, standing, ending, rfl⟩ := below
  obtain ⟨visit, mem, rfl⟩ := exists_visit located isDirectory followed route
  obtain ⟨names', trail', reached⟩ := exists_isReached located visit mem
  refine List.mem_flatMap.mpr ⟨visit, mem, (mem_files_iff proper whole plain reached regular).mpr ?_⟩
  exact ⟨name, content, standing, ending, rfl⟩

end Reports

/-- A search for test files comes to an end and is exact. It lists no directory twice and reports no
file twice. Every file that it reports is a test file at the end of a route, and every such file is
reported if the operating system follows the paths of the routes. -/
theorem testFiles_exact (disk : Disk) (root : String) (suffixes exclusions : List String)
    {home : Path} (proper : disk.tree.IsProper) (normal : Path.IsNormal disk.cwd)
    (located : disk.tree.locate (Path.ofText disk.cwd root) = .ok home)
    (isDirectory : disk.tree.entry? home = some .directory)
    (regular : HasRegularFiles disk.tree suffixes) :
    ∃ listed files,
      listed = visits disk.tree ⟨.ofTexts suffixes, exclusions⟩ [] [Path.ofText disk.cwd root] ∧
      (listed.map (·.place)).Nodup ∧
      files = listed.flatMap (·.files disk.tree ⟨.ofTexts suffixes, exclusions⟩) ∧
      (testFiles disk root ⟨.ofTexts suffixes, exclusions⟩).1 = .ok files ∧ files.Nodup ∧
      (∀ file ∈ files, IsTestBelow disk.tree suffixes exclusions home file) ∧
      (FollowsRoutes disk.tree exclusions (Path.ofText disk.cwd root) home →
        ∀ file, IsTestBelow disk.tree suffixes exclusions home file → file ∈ files) := by
  have plain : "." ∉ Path.ofText disk.cwd root :=
    Path.here_notMem_ofText (fun mem => (normal "." mem).1.ne_here rfl) root
  refine ⟨_, _, rfl, nodup_visits.1, rfl, testFiles_eq rfl disk root, ?_, ?_, ?_⟩
  · exact nodup_reports proper rfl plain located regular
  · exact fun file mem => isTestBelow_of_mem proper rfl plain located regular mem
  · exact fun followed file below =>
      mem_of_isTestBelow proper rfl plain located regular isDirectory followed below

/-- A project with a test file and a link back to its own directory. -/
def cyclic : Disk :=
  ⟨⟨[(["p"], .directory), (["p", "a.test.ts"], .file []), (["p", "back"], .link "/p")]⟩, []⟩

/-- Routes in the cyclic project never leave its directory. -/
lemma eq_of_mem_cyclic {names : List String} {trail : List Path}
    (route : Route cyclic.tree [] ["p"] names trail) : ∀ directory ∈ trail, directory = ["p"] := by
  induction route with
  | start => simp
  | @enter names directory trail name n place route listed included leads isDirectory ih =>
    cases ih directory List.mem_cons_self
    refine List.forall_mem_cons.mpr ⟨?_, ih⟩
    have here : cyclic.tree.locate ["p"] = .ok ["p"] := by decide +kernel
    obtain ⟨entry, standing⟩ := mem_namesIn_iff.mp listed
    have mem := mem_entries (by simp) standing
    simp only [cyclic, List.mem_cons, Prod.mk.injEq, List.cons_append, List.nil_append,
      List.cons.injEq, List.not_mem_nil, or_false, and_true, true_and, reduceCtorEq,
      false_and, false_or] at mem
    obtain ⟨rfl, rfl⟩ | ⟨rfl, rfl⟩ := mem
    · obtain ⟨m, _, leads'⟩ := exists_leads_last here
        (show cyclic.tree.locate ["p", "a.test.ts"] = .ok ["p", "a.test.ts"] by decide +kernel)
      obtain ⟨_, rfl⟩ := leads.unique leads'
      cases standing.symm.trans isDirectory
    · obtain ⟨m, _, leads'⟩ := exists_leads_last here
        (show cyclic.tree.locate ["p", "back"] = .ok ["p"] by decide +kernel)
      exact (leads.unique leads').2

/-- The walk ends on a cycle, with the test file. -/
theorem testFiles_exact_cyclic :
    ∃ files, (testFiles cyclic "/p" ⟨.ofTexts [".test.ts"], []⟩).1 = .ok files ∧
      ["p", "a.test.ts"] ∈ files := by
  have located : cyclic.tree.locate (Path.ofText cyclic.cwd "/p") = .ok ["p"] := by decide +kernel
  have regular : HasRegularFiles cyclic.tree [".test.ts"] := by
    intro directory name target found _
    have mem := mem_entries (by simp) found
    simp only [cyclic, List.mem_cons, Prod.mk.injEq, reduceCtorEq, and_false, false_or,
      List.not_mem_nil, or_false] at mem
    rw [mem.1]
    decide +kernel
  have followed : FollowsRoutes cyclic.tree [] (Path.ofText cyclic.cwd "/p") ["p"] := by
    intro names directory trail route nodup
    have same := eq_of_mem_cyclic route
    cases route with
    | start => decide +kernel
    | @enter _ above =>
      obtain ⟨rfl, below⟩ := List.forall_mem_cons.mp same
      cases below above List.mem_cons_self
      exact absurd List.mem_cons_self (List.nodup_cons.mp nodup).1
  obtain ⟨_, files, _, _, _, found, _, _, complete⟩ := testFiles_exact cyclic "/p" [".test.ts"] []
    (by decide +kernel) (by decide +kernel) located (by decide +kernel) regular
  refine ⟨files, found, complete followed _ ?_⟩
  exact ⟨[], ["p"], [], "a.test.ts", [], .start, rfl, by decide +kernel, rfl⟩

/-- A project with a test file behind two links. Each of them leads twenty times through the link
`s` to the root. -/
def distant : Disk :=
  ⟨⟨[(["s"], .link "."), (["p"], .directory),
      (["p", "l"], .link "/s/s/s/s/s/s/s/s/s/s/s/s/s/s/s/s/s/s/s/s/d"), (["d"], .directory),
      (["d", "m"], .link "/s/s/s/s/s/s/s/s/s/s/s/s/s/s/s/s/s/s/s/s/e"), (["e"], .directory),
      (["e", "x.test.ts"], .file [])]⟩, []⟩

/-- The walk over the distant project finds a link it cannot follow and no test file. -/
lemma findings_distant (query : Query) (included : query.exclusions = []) :
    Visit.findings distant.tree query ⟨["p"], ["p"]⟩ = [.descend ["p", "l"]] ∧
      Visit.findings distant.tree query ⟨["p", "l"], ["d"]⟩
        = [.event (.notice (inspectFailure ["p", "l", "m"] .tooManyLinks))] := by
  have first : distant.tree.namesIn ["p"] = ["l"] := List.mergeSort_singleton _
  have second : distant.tree.namesIn ["d"] = ["m"] := List.mergeSort_singleton _
  have near : distant.tree.status ["p", "l"] = .ok .directory := by decide +kernel
  have far : distant.tree.status ["p", "l", "m"] = .error .tooManyLinks := by decide +kernel
  simp [Visit.findings, first, second, inspect, near, far, included]

/-- The walk in the distant project lists the directory behind the first link and ends there. -/
lemma visits_distant (query : Query) (included : query.exclusions = []) :
    visits distant.tree query [] [["p"]] = [⟨["p"], ["p"]⟩, ⟨["p", "l"], ["d"]⟩] := by
  obtain ⟨first, second⟩ := findings_distant query included
  have here : distant.tree.locate ["p"] = .ok ["p"] := by decide +kernel
  have near : distant.tree.locate ["p", "l"] = .ok ["d"] := by decide +kernel
  rw [visits_new here (by simp) (by decide +kernel), first]
  simp only [directoriesOf, List.filterMap, List.nil_append]
  rw [visits_new near (by simp) (by decide +kernel), second]
  simp only [directoriesOf, List.filterMap, List.nil_append, visits]

/-- Each link can be followed on its own, but not both on one path, so that the test file behind
them is lost. -/
theorem testFiles_distant : distant.tree.IsProper ∧ Path.IsNormal distant.cwd ∧
    distant.tree.locate (Path.ofText distant.cwd "/p") = .ok ["p"] ∧
    distant.tree.entry? ["p"] = some .directory ∧ HasRegularFiles distant.tree [".test.ts"] ∧
    IsTestBelow distant.tree [".test.ts"] [] ["p"] ["e", "x.test.ts"] ∧
    (testFiles distant "/p" ⟨.ofTexts [".test.ts"], []⟩).1 = .ok [] := by
  refine ⟨by decide +kernel, by decide +kernel, by decide +kernel, by decide +kernel, ?_, ?_, ?_⟩
  · intro directory name target found _
    have mem := mem_entries (by simp) found
    simp only [distant, List.mem_cons, Prod.mk.injEq, reduceCtorEq, and_false, false_or,
      List.not_mem_nil, or_false] at mem
    obtain ⟨same, _⟩ | ⟨same, _⟩ | ⟨same, _⟩ := mem <;> rw [same] <;> decide +kernel
  · obtain ⟨n, _, first⟩ := exists_leads_last
      (show distant.tree.locate ["p"] = .ok ["p"] by decide +kernel)
      (show distant.tree.locate ["p", "l"] = .ok ["d"] by decide +kernel)
    obtain ⟨m, _, second⟩ := exists_leads_last
      (show distant.tree.locate ["d"] = .ok ["d"] by decide +kernel)
      (show distant.tree.locate ["d", "m"] = .ok ["e"] by decide +kernel)
    have route : Route distant.tree [] ["p"] ["l", "m"] [["e"], ["d"], ["p"]] :=
      .enter (.enter .start (mem_namesIn_iff.mpr ⟨_, rfl⟩) (by simp) first rfl)
        (mem_namesIn_iff.mpr ⟨_, rfl⟩) (by simp) second rfl
    exact ⟨_, _, _, "x.test.ts", [], route, rfl, by decide +kernel, rfl⟩
  · have root : Path.ofText distant.cwd "/p" = ["p"] := by decide +kernel
    obtain ⟨first, second⟩ := findings_distant ⟨.ofTexts [".test.ts"], []⟩ rfl
    rw [testFiles_eq rfl, root, visits_distant _ rfl]
    simp [Visit.files, first, second, eventsOf, filesOf]

end ExportCover.Discovery
