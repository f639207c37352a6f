import ExportCover.Proofs.Config.Table
import ExportCover.Proofs.Config.Typed
import ExportCover.Proofs.FileTree.Normal
import ExportCover.Proofs.Path.Glob
import ExportCover.Proofs.Path.Relative
import ExportCover.Run.Check

/-!
# Ignoring folders

An ignore pattern that is a literal folder with `/*` behind it leaves out the modules below that
folder, at any depth, and no other ones. A pattern is compared with the path under which a module is
shown, so that the patterns are a test of how that path starts (`admits_subtree`), and for a
canonical path this is a test of the directories it leads through (`startsWith_shown_iff`).
-/

namespace ExportCover

/-- The pattern for everything below a literal folder. -/
lemma Glob.admits_subtree {folder : String} (literal : IsLiteral folder) (text : String) :
    admits (folder ++ "/*") text = Text.startsWith text (folder ++ "/") := by
  have literal' : IsLiteral (folder ++ "/") := by
    intro c mem
    rw [String.toList_append] at mem
    obtain mem | mem := List.mem_append.mp mem
    · exact literal c mem
    · cases List.mem_singleton.mp mem
      rfl
  rw [← admits_star literal', String.append_assoc]
  rfl

/-- One of the patterns for the subtrees of some folders admits a text. -/
lemma Glob.any_admits_subtree {folders : List String}
    (literal : ∀ folder ∈ folders, IsLiteral folder) (text : String) :
    (folders.map (· ++ "/*")).any (admits · text)
      = folders.any fun folder => Text.startsWith text (folder ++ "/") := by
  rw [List.any_map, Bool.eq_iff_iff, List.any_eq_true, List.any_eq_true]
  refine exists_congr fun folder => and_congr_right fun mem => ?_
  rw [Function.comp_apply, admits_subtree (literal folder mem)]

/-- A place is shown below a folder exactly if it lies there. -/
lemma Path.startsWith_shown_iff {base place folder : Path} (normal : IsNormal place)
    (plain : ∀ name ∈ place, '\\' ∉ name.toList) (folderNormal : IsNormal folder)
    (below : folder ≠ []) :
    Text.startsWith (Specifier.foldSeparators (renderNames (relative place base)))
        ("/".intercalate folder ++ "/") ↔
      ∃ names, names ≠ [] ∧ place = base ++ folder ++ names := by
  have folded := notMem_renderNames_relative (by decide) (by decide) plain base
  rw [Specifier.foldSeparators_eq_self folded,
    startsWith_renderNames_iff (isStep_of_mem_relative normal)
      (fun name mem => (folderNormal name mem).1) below]
  obtain ⟨first, rest, rfl⟩ := List.exists_cons_of_ne_nil below
  have ne_up := (folderNormal first List.mem_cons_self).2
  simp only [List.cons_append, relative_eq_cons_iff ne_up, List.append_assoc]

namespace Run

variable {run : Run} {disk : Disk} {moduleFile : String} {suffixes : Listing}
  {folders : List String}

/-- A module that is no test file is left alone exactly if it is shown below one of the folders. -/
lemma shouldCheck_subtrees (literal : ∀ folder ∈ folders, Glob.IsLiteral folder)
    (ignored : run.config.get? "ignore" = some (.texts (folders.map (· ++ "/*"))))
    (hasSuffixes : run.config.listing "test_suffixes" = .ok suffixes)
    (untested : Discovery.isTestFile moduleFile suffixes = .ok false) :
    run.shouldCheck disk moduleFile = (do
      let shown ← disk.relativeTo run.root moduleFile
      return !folders.any fun folder => Text.startsWith shown (folder ++ "/")) := by
  have listing : run.config.listing "ignore" = .ok (.ofTexts (folders.map (· ++ "/*"))) := by
    rw [Config.listing, Config.get_eq_ok ignored, Outcome.ok_bind, Listing.ofValue_texts]
  rw [shouldCheck, hasSuffixes, Outcome.ok_bind, untested, Outcome.ok_bind]
  simp only [listing, Outcome.ok_bind, Listing.any_ofTexts, Glob.any_admits_subtree literal]
  rfl

/-- Ignore patterns for everything below literal folders leave exactly the subtrees of these folders
alone. The path under which a module is shown decides it, if there is one; a module at a canonical
place is left alone if it lies somewhere below one of the folders, and is checked otherwise. -/
theorem ignores_subtrees (disk : Disk) (literal : ∀ folder ∈ folders, Glob.IsLiteral folder)
    (ignored : run.config.get? "ignore" = some (.texts (folders.map (· ++ "/*"))))
    (hasSuffixes : run.config.listing "test_suffixes" = .ok suffixes)
    (untested : Discovery.isTestFile moduleFile suffixes = .ok false) :
    (∀ fault, run.shouldCheck disk moduleFile = .error fault ↔
      disk.relativeTo run.root moduleFile = .error fault) ∧
    (∀ shown, disk.relativeTo run.root moduleFile = .ok shown → ∃ isChecked,
      run.shouldCheck disk moduleFile = .ok isChecked ∧
      (isChecked = false ↔ ∃ folder ∈ folders, Text.startsWith shown (folder ++ "/"))) ∧
    (∀ base place, Path.isAbsolute moduleFile → disk.resolve run.root = .ok base →
      disk.resolve moduleFile = .ok place → (∀ name ∈ place, '\\' ∉ name.toList) →
      ∀ trees : List Path, folders = trees.map ("/".intercalate ·) →
      (∀ tree ∈ trees, tree ≠ [] ∧ Path.IsNormal tree) →
      ∃ isChecked, run.shouldCheck disk moduleFile = .ok isChecked ∧
        (isChecked = false ↔ ∃ tree ∈ trees, ∃ names, names ≠ [] ∧ place = base ++ tree ++ names))
    := by
  have verdict : run.shouldCheck disk moduleFile = _ :=
    shouldCheck_subtrees literal ignored hasSuffixes untested
  have decided (shown : String) (relative : disk.relativeTo run.root moduleFile = .ok shown) :
      ∃ isChecked, run.shouldCheck disk moduleFile = .ok isChecked ∧
      (isChecked = false ↔ ∃ folder ∈ folders, Text.startsWith shown (folder ++ "/")) := by
    refine ⟨_, by rw [verdict, relative]; rfl, ?_⟩
    rw [Bool.not_eq_false', List.any_eq_true]
  refine ⟨fun fault => ?_, decided, ?_⟩
  · simp [verdict, Outcome.bind_eq_error]
  · rintro base place rooted resolvedBase resolved plain trees rfl inside
    have normal := Disk.resolve_normal rooted resolved
    have relative : disk.relativeTo run.root moduleFile
        = .ok (Specifier.foldSeparators (Path.renderNames (Path.relative place base))) := by
      rw [Disk.relativeTo_eq, resolvedBase, resolved]
      rfl
    obtain ⟨isChecked, checked, left⟩ := decided _ relative
    refine ⟨isChecked, checked, left.trans ?_⟩
    simp only [List.mem_map, exists_exists_and_eq_and]
    refine exists_congr fun tree => and_congr_right fun mem => ?_
    obtain ⟨below, treeNormal⟩ := inside tree mem
    exact Path.startsWith_shown_iff normal plain treeNormal below

/-- A project with modules far below a folder and beside it. -/
def generated : Disk :=
  ⟨⟨[(["p"], .directory), (["p", "gen"], .directory), (["p", "gen", "v1"], .directory),
      (["p", "gen", "v1", "a.ts"], .file []), (["p", "gen2"], .directory),
      (["p", "gen2", "b.ts"], .file [])]⟩, ["p"]⟩

/-- A run in the project that leaves the folder alone. -/
def sparingRun : Run :=
  ⟨"/p", Config.default.set "ignore" (.texts ["gen/*", "lib/x/*"])⟩

/-- The modules below the folder are left alone, and those in a folder with a longer name are
checked. -/
theorem ignores_subtrees_generated :
    (∀ folder ∈ ["gen", "lib/x"], Glob.IsLiteral folder) ∧
    sparingRun.config.get? "ignore" = some (.texts (["gen", "lib/x"].map (· ++ "/*"))) ∧
    sparingRun.shouldCheck generated "/p/gen/v1/a.ts" = .ok false ∧
    sparingRun.shouldCheck generated "/p/gen2/b.ts" = .ok true := by
  have literal : ∀ folder ∈ ["gen", "lib/x"], Glob.IsLiteral folder := by decide +kernel
  have ignored : sparingRun.config.get? "ignore"
      = some (.texts (["gen", "lib/x"].map (· ++ "/*"))) := by
    rw [show ["gen", "lib/x"].map (· ++ "/*") = ["gen/*", "lib/x/*"] by decide +kernel]
    exact (Config.get?_set ..).trans (if_pos rfl)
  have hasSuffixes : sparingRun.config.listing "test_suffixes"
      = .ok (.ofTexts Discovery.defaultSuffixes) := by decide +kernel
  have inner : Discovery.isTestFile "/p/gen/v1/a.ts" (.ofTexts Discovery.defaultSuffixes)
      = .ok false := by decide +kernel
  have outer : Discovery.isTestFile "/p/gen2/b.ts" (.ofTexts Discovery.defaultSuffixes)
      = .ok false := by decide +kernel
  refine ⟨literal, ignored, ?_, ?_⟩
  · obtain ⟨isChecked, verdict, left⟩ :=
      (ignores_subtrees generated literal ignored hasSuffixes inner).2.2 ["p"]
        ["p", "gen", "v1", "a.ts"] (by decide +kernel) (by decide +kernel) (by decide +kernel)
        (by decide +kernel) [["gen"], ["lib", "x"]] (by decide +kernel) (by decide +kernel)
    rw [verdict, left.mpr ⟨["gen"], by decide, ["v1", "a.ts"], by decide, rfl⟩]
  · obtain ⟨isChecked, verdict, left⟩ :=
      (ignores_subtrees generated literal ignored hasSuffixes outer).2.1 "gen2/b.ts"
        (by decide +kernel)
    have apart : ¬ ∃ folder ∈ ["gen", "lib/x"], Text.startsWith "gen2/b.ts" (folder ++ "/") := by
      decide +kernel
    rw [verdict, eq_true_of_ne_false (mt left.mp apart)]

end Run

end ExportCover
