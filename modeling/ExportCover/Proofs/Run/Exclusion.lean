import ExportCover.Proofs.Discovery.Reach
import ExportCover.Proofs.Run.Search
import ExportCover.Proofs.Run.History

/-!
# Excluded directories

A walk does not enter a directory under an excluded name. It knows a directory by the name of the
entry that leads there, so that a link with another name opens the directory to it: a `Door`.
Without doors no test file of a run stands in an excluded directory, and no import in one makes a
name covered (`outside_excluded`). A door lets in what the exclusions are meant to keep out
(`inside_excluded`).
-/

namespace ExportCover

namespace Discovery

open FileTree

/-- A directory below a root that has an excluded name or stands in such a directory. -/
def IsExcluded (exclusions : List String) (home directory : Path) : Prop :=
  ∃ names, directory = home ++ names ∧ ∃ name ∈ names, name ∈ exclusions

/-- A link outside the excluded directories that takes a walk into one of them: it leads to a
directory and has no excluded name, or it leads to a file and is named like a test file. -/
structure Door (tree : FileTree) (suffixes exclusions : List String) (home directory : Path)
    (name : String) (place : Path) : Prop where
  outside : ¬ IsExcluded exclusions home directory
  isLink : ∃ target, tree.entry? (directory ++ [name]) = some (.link target)
  leads : ∃ n, tree.Leads n directory [name] place
  inside : tree.entry? place = some .directory ∧ name ∉ exclusions ∧
      IsExcluded exclusions home place ∨
    (∃ content, tree.entry? place = some (.file content)) ∧ suffixes.any (Text.endsWith name) ∧
      IsExcluded exclusions home place.dropLast

/-- There is a door in a directory at the end of a route. -/
def HasDoor (tree : FileTree) (suffixes exclusions : List String) (home : Path) : Prop :=
  ∃ names directory trail name place, Route tree exclusions home names (directory :: trail) ∧
    Door tree suffixes exclusions home directory name place

variable {tree : FileTree} {suffixes exclusions : List String} {home directory : Path}
  {name : String}

/-- The directory where a walk starts is not excluded. -/
lemma not_isExcluded_home : ¬ IsExcluded exclusions home home := by
  rintro ⟨names, same, name, mem, _⟩
  rw [List.self_eq_append_right] at same
  rw [same] at mem
  cases mem

/-- A name that is not excluded leads to nothing excluded. -/
lemma not_isExcluded_concat (outside : ¬ IsExcluded exclusions home directory)
    (included : name ∉ exclusions) : ¬ IsExcluded exclusions home (directory ++ [name]) := by
  rintro ⟨names, same, excluded, mem, hit⟩
  obtain rfl | ⟨names, last, rfl⟩ := List.eq_nil_or_concat' names
  · cases mem
  rw [← List.append_assoc] at same
  obtain ⟨rfl, last_eq⟩ := List.append_inj' same rfl
  cases last_eq
  obtain mem | mem := List.mem_append.mp mem
  · exact outside ⟨names, rfl, excluded, mem, hit⟩
  · cases List.mem_singleton.mp mem
    exact included hit

/-- A route only leads into an excluded directory through a door. -/
lemma Route.hasDoor (proper : tree.IsProper) {names : List String} {trail : List Path}
    (route : Route tree exclusions home names (directory :: trail))
    (excluded : IsExcluded exclusions home directory) :
    HasDoor tree suffixes exclusions home := by
  generalize entered : directory :: trail = trail' at route
  induction route generalizing directory trail with
  | start =>
    cases entered
    exact absurd excluded not_isExcluded_home
  | @enter names above trail' name n place route listed included leads isDirectory ih =>
    cases entered
    by_cases earlier : IsExcluded exclusions home above
    · exact ih earlier rfl
    obtain ⟨ne_up, ne_here⟩ := proper.step_of_mem listed
    obtain rfl | isLink := leads.eq_or_link ne_up ne_here
    · exact absurd excluded (not_isExcluded_concat earlier included)
    · exact ⟨names, above, trail', name, place, route, earlier, isLink, ⟨n, leads⟩,
        .inl ⟨isDirectory, included, excluded⟩⟩

/-- The directories that a walk lists lie at the ends of routes from the canonical root, whether
there is a directory at the root or not. -/
lemma exists_isReached_canonical {query : Query} {start : Path} (plain : "." ∉ start) :
    ∀ visit ∈ visits tree query [] [start], ∃ names trail, visit.IsReached tree query start
      (tree.canonical start) (visits tree query [] [start]) names trail := by
  cases located : tree.locate start with
  | error error =>
    rw [visits_lost located, visits]
    simp
  | ok place =>
    obtain ⟨n, _, leads⟩ := locate_eq_ok_iff.mp located
    rw [leads.canonical_eq plain]
    exact exists_isReached located

/-- A reported file only stands in an excluded directory if there is a door. -/
lemma hasDoor_of_mem_files {query : Query} {start file : Path} {all : List Visit} {visit : Visit}
    {names : List String} {trail : List Path} (proper : tree.IsProper)
    (whole : query.suffixes.broken = false) (plain : "." ∉ start)
    (reached : visit.IsReached tree query start home all names trail)
    (mem : file ∈ visit.files tree query)
    (excluded : IsExcluded query.exclusions home file.dropLast) :
    HasDoor tree query.suffixes.texts query.exclusions home := by
  by_cases earlier : IsExcluded query.exclusions home visit.place
  · exact reached.route.hasDoor proper earlier
  obtain ⟨name, inside, ending, found, standing⟩ :=
    (mem_files_iff_leads proper whole plain reached).mp mem
  obtain ⟨ne_up, ne_here⟩ := proper.step_of_mem inside
  obtain ⟨n, _, leads⟩ := exists_leads_last reached.located found
  obtain rfl | isLink := leads.eq_or_link ne_up ne_here
  · rw [List.dropLast_concat] at excluded
    exact absurd excluded earlier
  · exact ⟨names, visit.place, trail, name, file, reached.route, earlier, isLink, ⟨n, leads⟩,
      .inr ⟨standing, ending, excluded⟩⟩

end Discovery

namespace Reading

variable {reading : Reading} {run : Run} {disk : Disk} {name moduleFile : String}

/-- An import that is found binds the name. -/
lemma exists_named {index : Json} {target : String} {facts : List ImportFact}
    (found : Run.importsName index target name facts = .ok true) :
    ∃ fact ∈ facts, name ∈ fact.bound.names := by
  induction facts with
  | nil => cases found
  | cons fact rest ih =>
    obtain ⟨same, compared, found⟩ := Outcome.bind_eq_ok.mp found
    by_cases hit : (same && fact.bound.names.contains name) = true
    · exact ⟨fact, List.mem_cons_self, by simpa using (Bool.and_eq_true_iff.mp hit).2⟩
    · rw [if_neg hit] at found
      obtain ⟨fact', mem, named⟩ := ih found
      exact ⟨fact', List.mem_cons_of_mem _ mem, named⟩

/-- Whatever the index name is, a covering file is one of the test files and imports the name. -/
lemma exists_imports {index : Json} {files : List String} {testFile : String}
    (found : reading.coveringFile run disk index name moduleFile files = .ok (some testFile)) :
    testFile ∈ files ∧ ∃ facts, reading.imports testFile = .ok facts ∧
      ∃ fact ∈ facts, name ∈ fact.bound.names := by
  induction files with
  | nil => cases found
  | cons first rest ih =>
    obtain ⟨target, _, found⟩ := Outcome.bind_eq_ok.mp found
    obtain ⟨facts, read, found⟩ := Outcome.bind_eq_ok.mp found
    obtain ⟨hit, searched, found⟩ := Outcome.bind_eq_ok.mp found
    cases hit with
    | true =>
      cases found
      exact ⟨List.mem_cons_self, facts, read, exists_named searched⟩
    | false =>
      obtain ⟨mem, rest⟩ := ih found
      exact ⟨List.mem_cons_of_mem _ mem, rest⟩

/-- A name that is covered is imported by some test file. -/
lemma exists_imports_of_isCovered
    (covered : reading.isCovered run disk name moduleFile = .ok true) :
    ∃ files, reading.files = .ok files ∧ ∃ testFile ∈ files, ∃ facts,
      reading.imports testFile = .ok facts ∧ ∃ fact ∈ facts, name ∈ fact.bound.names := by
  obtain ⟨place, _, covered⟩ := Outcome.bind_eq_ok.mp covered
  obtain ⟨index, _, covered⟩ := Outcome.bind_eq_ok.mp covered
  obtain ⟨files, found, covered⟩ := Outcome.bind_eq_ok.mp covered
  obtain ⟨testFile?, searched, covered⟩ := Outcome.bind_eq_ok.mp covered
  cases testFile? with
  | none => cases covered
  | some testFile =>
    obtain ⟨mem, imports⟩ := exists_imports searched
    exact ⟨files, found, testFile, mem, imports⟩

end Reading

namespace Run

open Discovery

/-- Without doors the exclusions hold. No test file that a search reports stands in an excluded
directory below the canonical root, and a name that a run calls covered is imported by a test file
outside of these directories. -/
theorem outside_excluded (disk : Disk) (root : String) (suffixes exclusions : List String)
    (proper : disk.tree.IsProper) (normal : Path.IsNormal disk.cwd)
    (shut : ¬ HasDoor disk.tree suffixes exclusions
      (disk.tree.canonical (Path.ofText disk.cwd root))) :
    ∃ files, (Discovery.testFiles disk root ⟨.ofTexts suffixes, exclusions⟩).1 = .ok files ∧
      (∀ file ∈ files,
        ¬ IsExcluded exclusions (disk.tree.canonical (Path.ofText disk.cwd root)) file.dropLast) ∧
      ∀ (run : Run) (past : List Operation) (name moduleFile : String), run.root = root →
        run.query = .ok ⟨.ofTexts suffixes, exclusions⟩ →
        run.ask disk (run.replay (past.map (disk, ·)) .empty) (.isCovered name moduleFile)
          = .ok (.verdict true) →
        ∃ file ∈ files,
          ¬ IsExcluded exclusions (disk.tree.canonical (Path.ofText disk.cwd root)) file.dropLast ∧
          ∃ facts, run.diskImports disk (Path.render file) = .ok facts ∧
            ∃ fact ∈ facts, name ∈ fact.bound.names := by
  have plain : "." ∉ Path.ofText disk.cwd root :=
    Path.here_notMem_ofText (fun mem => (normal "." mem).1.ne_here rfl) root
  have outside : ∀ file ∈ (visits disk.tree ⟨.ofTexts suffixes, exclusions⟩ []
      [Path.ofText disk.cwd root]).flatMap (·.files disk.tree ⟨.ofTexts suffixes, exclusions⟩),
      ¬ IsExcluded exclusions (disk.tree.canonical (Path.ofText disk.cwd root)) file.dropLast := by
    intro file mem excluded
    obtain ⟨visit, visit_mem, mem⟩ := List.mem_flatMap.mp mem
    obtain ⟨names, trail, reached⟩ := exists_isReached_canonical plain visit visit_mem
    exact shut (hasDoor_of_mem_files proper rfl plain reached mem excluded)
  refine ⟨_, testFiles_eq rfl disk root, outside, ?_⟩
  rintro run past name moduleFile rfl query covered
  -- On one disk the run reads what a new run reads: the files of the search, from the disk.
  rw [ask_eq_answer (wellFormed_replay run _), reading_replay Memo.wellFormed_empty] at covered
  obtain ⟨_, covered, same⟩ := Outcome.map_eq_ok.mp covered
  cases same
  obtain ⟨files, found, testFile, mem, facts, read, named⟩ :=
    Reading.exists_imports_of_isCovered covered
  have onDisk : run.diskFiles disk = .ok files := found
  rw [diskFiles, query, Outcome.ok_bind, testFiles_eq rfl, Outcome.ok_bind] at onDisk
  cases onDisk
  obtain ⟨file, file_mem, rfl⟩ := List.mem_map.mp mem
  exact ⟨file, file_mem, outside file file_mem, facts, read, named⟩

/-- A project in which the packages of a part are a link to those of the whole. -/
def packaged : Disk :=
  ⟨⟨[(["p"], .directory), (["p", "node_modules"], .directory),
    (["p", "node_modules", "x.test.ts"], .file []), (["p", "part"], .directory),
    (["p", "part", "node_modules"], .link "/p/node_modules")]⟩, []⟩

/-- A link under an excluded name is no door. -/
theorem outside_excluded_packaged :
    ∃ files, (Discovery.testFiles packaged "/p" ⟨.ofTexts [".test.ts"], ["node_modules"]⟩).1
        = .ok files ∧
      ∀ file ∈ files, ¬ IsExcluded ["node_modules"] ["p"] file.dropLast := by
  have home : packaged.tree.canonical (Path.ofText packaged.cwd "/p") = ["p"] := by decide +kernel
  have shut : ¬ HasDoor packaged.tree [".test.ts"] ["node_modules"] ["p"] := by
    rintro ⟨_, directory, _, name, place, _, door⟩
    obtain ⟨target, linked⟩ := door.isLink
    have mem := FileTree.mem_entries (by simp) linked
    simp only [packaged, List.mem_cons, Prod.mk.injEq, reduceCtorEq, and_false, false_or,
      List.not_mem_nil, or_false] at mem
    obtain ⟨_, last⟩ := List.append_inj'
      (show directory ++ [name] = ["p", "part"] ++ ["node_modules"] from mem.1) rfl
    cases last
    obtain ⟨_, included, _⟩ | ⟨_, ending, _⟩ := door.inside
    · exact included (by simp)
    · revert ending
      decide +kernel
  obtain ⟨files, found, outside, _⟩ := outside_excluded packaged "/p" [".test.ts"] ["node_modules"]
    (by decide +kernel) (by decide +kernel) (home ▸ shut)
  exact ⟨files, found, home ▸ outside⟩

/-- A project with a link to its packages, one of which has a test file. -/
def linked : Disk :=
  ⟨⟨[(["p"], .directory), (["p", "deps"], .link "node_modules"),
    (["p", "node_modules"], .directory),
    (["p", "node_modules", "x.test.ts"], .file (Text.encode "import {f} from '../m'"))]⟩, []⟩

/-- A run of the check on the linked project. -/
def linkedRun : Run := ⟨"/p", Config.default.set "extensions" (.texts [".ts"])⟩

/-- The walk over the linked project reports the test file behind the link. -/
lemma testFiles_linked : (Discovery.testFiles linked "/p" defaultQuery).1
    = .ok [["p", "node_modules", "x.test.ts"]] := by
  have root : Path.ofText linked.cwd "/p" = ["p"] := by decide +kernel
  have here : linked.tree.locate ["p"] = .ok ["p"] := by decide +kernel
  have behind : linked.tree.locate ["p", "deps"] = .ok ["p", "node_modules"] := by decide +kernel
  have names : linked.tree.namesIn ["p"] = ["deps", "node_modules"] := by
    exact List.mergeSort_of_pairwise (by decide +kernel)
  have names' : linked.tree.namesIn ["p", "node_modules"] = ["x.test.ts"] :=
    List.mergeSort_singleton _
  have first : Visit.findings linked.tree defaultQuery ⟨["p"], ["p"]⟩
      = [.descend ["p", "deps"], .nothing] := by
    rw [Visit.findings, names]
    decide +kernel
  have second : Visit.findings linked.tree defaultQuery ⟨["p", "deps"], ["p", "node_modules"]⟩
      = [.event (.found ["p", "node_modules", "x.test.ts"])] := by
    rw [Visit.findings, names']
    decide +kernel
  rw [testFiles_eq rfl, root, visits_new here (by simp) (by decide +kernel), first]
  simp only [directoriesOf, List.filterMap, List.nil_append]
  rw [visits_new behind (by simp) (by decide +kernel), second]
  simp [directoriesOf, visits, Visit.files, first, second, eventsOf, filesOf]

/-- The link is a door: the walk reports a test file in the excluded directory behind it, and a name
is covered by what that file imports. -/
theorem inside_excluded :
    (Discovery.testFiles linked "/p" defaultQuery).1 = .ok [["p", "node_modules", "x.test.ts"]] ∧
      IsExcluded defaultQuery.exclusions (linked.tree.canonical (Path.ofText linked.cwd "/p"))
        ["p", "node_modules"] ∧
      linkedRun.query = .ok defaultQuery ∧
      linkedRun.ask linked .empty (.isCovered "f" "/p/m.ts") = .ok (.verdict true) := by
  have home : linked.tree.canonical (Path.ofText linked.cwd "/p") = ["p"] := by decide +kernel
  have query : linkedRun.query = .ok defaultQuery := by decide +kernel
  refine ⟨testFiles_linked, ?_, query, ?_⟩
  · rw [home]
    exact ⟨["node_modules"], rfl, "node_modules", by simp, by decide +kernel⟩
  have hasIndex : linkedRun.config.get "index_name" = .ok (.string "index") := rfl
  have resolved : linked.resolveFrom linkedRun.root "/p/m.ts" = .ok ["p", "m.ts"] := by
    decide +kernel
  have files : (linkedRun.reading linked .empty).files = .ok ["/p/node_modules/x.test.ts"] := by
    have found : linkedRun.diskFiles linked = .ok ["/p/node_modules/x.test.ts"] := by
      rw [diskFiles, query, Outcome.ok_bind, show linkedRun.root = "/p" from rfl, testFiles_linked]
      decide +kernel
    exact found
  have imports : ∀ testFile ∈ ["/p/node_modules/x.test.ts"],
      (linkedRun.reading linked .empty).imports testFile
        = .ok [⟨"../m", ⟨["f"], none, none⟩⟩] := by
    decide +kernel
  have spelled : Specifier.spelling [".ts"] "index" "/p/node_modules/x.test.ts"
      (Path.render ["p", "m.ts"]) = "../m" := by
    rw [Specifier.spelling, Specifier.ofFile, Specifier.stem_singleton]
    decide +kernel
  have covered := Reading.isCovered_eq rfl hasIndex resolved files (by decide +kernel) imports "f"
  rw [ask_eq_answer Memo.wellFormed_empty, Reading.answer, covered]
  simp only [List.any_cons, List.any_nil, spelled]
  decide +kernel

end Run

end ExportCover
