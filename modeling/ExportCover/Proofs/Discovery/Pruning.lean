import ExportCover.Proofs.Command.Selection
import ExportCover.Proofs.Discovery.Reach

/-!
# Source files as a pruning walk lists them

A pruning walk goes down from a directory into the directories in it that are not excluded, and
follows no links to directories (`pruned`). The source files below a directory are chosen among the
entries of the tree, and they are those that such a walk lists (`sourceFiles_eq_pruned`), each of
them once.
-/

namespace ExportCover.Discovery

open FileTree

/-- What a walk lists below a directory, down through at most `depth` directories: the entries that
are no directories, then what is below the directories that are not excluded. -/
def pruned (tree : FileTree) (exclusions : List String) : Nat → Path → List Path
  | 0, _ => []
  | depth + 1, directory =>
    let names := tree.namesIn directory
    (names.filter fun name => !tree.isDirectory (directory ++ [name])).map (directory ++ [·])
      ++ (names.filter fun name =>
            tree.isDirectoryAt (directory ++ [name]) && !exclusions.contains name).flatMap
          fun name => pruned tree exclusions depth (directory ++ [name])

/-- An entry below a directory that is no directory and leads to none, with the names of the
directories in between, none of them excluded. -/
structure IsBelow (tree : FileTree) (exclusions : List String) (directory : Path)
    (names : List String) (name : String) : Prop where
  included : ∀ above ∈ names, above ∉ exclusions
  standing : ∃ entry, tree.entry? (directory ++ names ++ [name]) = some entry
  noDirectory : tree.isDirectory (directory ++ names ++ [name]) = false

variable {tree : FileTree} {exclusions : List String} {directory path : Path} {depth : Nat}

/-- An entry counts as a source if no excluded name stands above it and it is no directory. -/
lemma isSourceEntry_iff : isSourceEntry tree directory exclusions path ↔
    ∃ names name, path = directory ++ names ++ [name] ∧ (∀ above ∈ names, above ∉ exclusions) ∧
      tree.isDirectory path = false := by
  simp only [isSourceEntry, Bool.and_eq_true, List.isPrefixOf_iff_prefix, decide_eq_true_eq,
    Bool.not_eq_true', List.any_eq_false, List.contains_iff_mem]
  constructor
  · rintro ⟨⟨⟨⟨below, rfl⟩, longer⟩, included⟩, noDirectory⟩
    obtain rfl | ⟨names, name, rfl⟩ := List.eq_nil_or_concat' below
    · simp at longer
    · refine ⟨names, name, (List.append_assoc _ _ _).symm, ?_, noDirectory⟩
      simpa using included
  · rintro ⟨names, name, rfl, included, noDirectory⟩
    refine ⟨⟨⟨⟨names ++ [name], by simp⟩, by simp⟩, ?_⟩, noDirectory⟩
    simpa [List.append_assoc] using included

/-- The entries that source files are chosen from. -/
lemma mem_sourceEntries_iff :
    path ∈ (tree.entries.map (·.1)).filter (isSourceEntry tree directory exclusions) ↔
      ∃ names name, IsBelow tree exclusions directory names name ∧
        path = directory ++ names ++ [name] := by
  rw [List.mem_filter, isSourceEntry_iff]
  constructor
  · rintro ⟨listed, names, name, rfl, included, noDirectory⟩
    obtain ⟨⟨path, entry⟩, mem, rfl⟩ := List.mem_map.mp listed
    exact ⟨names, name, ⟨included, exists_entry mem (by simp), noDirectory⟩, rfl⟩
  · rintro ⟨names, name, ⟨included, ⟨entry, found⟩, noDirectory⟩, rfl⟩
    have listed := mem_entries (by simp) found
    exact ⟨List.mem_map.mpr ⟨_, listed, rfl⟩, names, name, rfl, included, noDirectory⟩

/-- What is below a directory is below one of its entries that is not excluded. -/
lemma isBelow_cons {first name : String} {names : List String} :
    IsBelow tree exclusions directory (first :: names) name ↔
      first ∉ exclusions ∧ IsBelow tree exclusions (directory ++ [first]) names name := by
  have same : directory ++ first :: names = directory ++ [first] ++ names := by simp
  constructor
  · rintro ⟨included, standing, noDirectory⟩
    obtain ⟨firstIncluded, included⟩ := List.forall_mem_cons.mp included
    exact ⟨firstIncluded, included, same ▸ standing, same ▸ noDirectory⟩
  · rintro ⟨firstIncluded, included, standing, noDirectory⟩
    exact ⟨List.forall_mem_cons.mpr ⟨firstIncluded, included⟩, same ▸ standing, same ▸ noDirectory⟩

section Walk

/-- A step of a pruning walk: an entry, or what is below one. -/
lemma mem_pruned_succ : path ∈ pruned tree exclusions (depth + 1) directory ↔
    ∃ name ∈ tree.namesIn directory,
      (tree.isDirectory (directory ++ [name]) = false ∧ path = directory ++ [name]) ∨
      (tree.entry? (directory ++ [name]) = some .directory ∧ name ∉ exclusions ∧
        path ∈ pruned tree exclusions depth (directory ++ [name])) := by
  simp only [pruned, List.mem_append, List.mem_map, List.mem_flatMap, List.mem_filter,
    Bool.not_eq_true', Bool.and_eq_true, isDirectoryAt_iff, List.contains_eq_mem,
    decide_eq_false_iff_not]
  constructor
  · rintro (⟨name, ⟨inside, noDirectory⟩, rfl⟩ | ⟨name, ⟨inside, isDirectory, included⟩, below⟩)
    · exact ⟨name, inside, .inl ⟨noDirectory, rfl⟩⟩
    · exact ⟨name, inside, .inr ⟨isDirectory, included, below⟩⟩
  · rintro ⟨name, inside, ⟨noDirectory, rfl⟩ | ⟨isDirectory, included, below⟩⟩
    · exact .inl ⟨name, ⟨inside, noDirectory⟩, rfl⟩
    · exact .inr ⟨name, ⟨inside, isDirectory, included⟩, below⟩

/-- A run lists what is below the directory, as far down as it goes. -/
lemma mem_pruned_iff (wf : tree.WellFormed) : path ∈ pruned tree exclusions depth directory ↔
    ∃ names name, names.length < depth ∧ IsBelow tree exclusions directory names name ∧
      path = directory ++ names ++ [name] := by
  -- One more level puts the name of a directory in front of what is below it.
  induction depth generalizing directory with
  | zero => simp [pruned]
  | succ depth ih =>
    rw [mem_pruned_succ]
    constructor
    · rintro ⟨name, inside, ⟨noDirectory, rfl⟩ | ⟨isDirectory, included, below⟩⟩
      · refine ⟨[], name, Nat.succ_pos _, ⟨by simp, ?_, by simpa using noDirectory⟩, by simp⟩
        simpa using mem_namesIn_iff.mp inside
      · obtain ⟨names, last, short, found, rfl⟩ := ih.mp below
        refine ⟨name :: names, last, Nat.succ_lt_succ short, ?_, by simp⟩
        exact isBelow_cons.mpr ⟨included, found⟩
    · rintro ⟨names, last, short, below, rfl⟩
      cases names with
      | nil =>
        refine ⟨last, mem_namesIn_iff.mpr ?_, .inl ⟨?_, by simp⟩⟩
        · simpa using below.standing
        · simpa using below.noDirectory
      | cons name names =>
        obtain ⟨included, below⟩ := isBelow_cons.mp below
        obtain ⟨entry, standing⟩ := below.standing
        have isDirectory : tree.entry? (directory ++ [name]) = some .directory :=
          wf.entry?_above standing
        refine ⟨name, mem_namesIn_iff.mpr ⟨_, isDirectory⟩, .inr ⟨isDirectory, included, ?_⟩⟩
        exact ih.mpr ⟨names, last, Nat.lt_of_succ_lt_succ short, below, by simp⟩

/-- A run lists nothing twice. -/
lemma nodup_pruned (wf : tree.WellFormed) : (pruned tree exclusions depth directory).Nodup := by
  induction depth generalizing directory with
  | zero => exact List.nodup_nil
  | succ depth ih =>
    have nodup : (tree.namesIn directory).Nodup := wf.nodup_namesIn
    rw [pruned]
    refine List.nodup_append.mpr ⟨?_, List.nodup_flatMap.mpr ⟨fun name _ => ih, ?_⟩, ?_⟩
    · refine (nodup.filter _).map fun a b same => ?_
      simpa using same
    · refine (nodup.filter _).imp fun {a b} apart path mem mem' => apart ?_
      obtain ⟨_, _, -, -, rfl⟩ := (mem_pruned_iff wf).mp mem
      obtain ⟨_, _, -, -, same⟩ := (mem_pruned_iff wf).mp mem'
      simp only [List.append_assoc, List.append_cancel_left_eq, List.cons_append] at same
      exact (List.cons.inj same).1
    -- What is below a directory has at least one name more than what is in it.
    · intro file mem other mem' same
      obtain ⟨name, _, rfl⟩ := List.mem_map.mp mem
      obtain ⟨name', _, below⟩ := List.mem_flatMap.mp mem'
      obtain ⟨_, _, -, -, rfl⟩ := (mem_pruned_iff wf).mp below
      simpa using congrArg List.length same

/-- The entries that source files are chosen from are what a pruning walk lists that goes down far
enough. -/
lemma pruned_perm (wf : tree.WellFormed) (deep : ∀ listed ∈ tree.entries, listed.1.length ≤ depth) :
    (pruned tree exclusions depth directory).Perm
      ((tree.entries.map (·.1)).filter (isSourceEntry tree directory exclusions)) := by
  refine (List.perm_ext_iff_of_nodup (nodup_pruned wf) (wf.1.filter _)).mpr fun path => ?_
  rw [mem_pruned_iff wf, mem_sourceEntries_iff]
  refine exists_congr fun names => exists_congr fun name => and_iff_right_of_imp ?_
  rintro ⟨⟨_, ⟨entry, standing⟩, _⟩, rfl⟩
  have short := deep _ (mem_entries (by simp) standing)
  simp only [List.length_append, List.length_singleton] at short
  omega

end Walk

section Sources

variable {extensions : List String} (proper : tree.IsProper)
  (isDirectory : tree.entry? directory = some .directory)
include proper isDirectory

/-- The source files below a directory are filtered from the table of entries. -/
lemma sourcesAt_directory : sourcesAt tree directory extensions exclusions
    = ((tree.entries.map (·.1)).filter (isSourceEntry tree directory exclusions)).filter
        fun file => extensions.any (Text.endsWith (file.getLast?.getD "")) := by
  have status : tree.status directory = .ok .directory :=
    status_eq_ok_iff.mpr ⟨_, proper.locate_directory isDirectory, isDirectory⟩
  simp [sourcesAt, isFile, FileTree.isDirectory, status]

/-- The source files below a directory stand under names that are not excluded. -/
lemma mem_sourcesAt_iff : path ∈ sourcesAt tree directory extensions exclusions ↔
    ∃ names name, IsBelow tree exclusions directory names name ∧
      extensions.any (Text.endsWith name) ∧ path = directory ++ names ++ [name] := by
  rw [sourcesAt_directory proper isDirectory, List.mem_filter, mem_sourceEntries_iff]
  constructor
  · rintro ⟨⟨names, name, below, rfl⟩, ending⟩
    rw [List.getLast?_concat] at ending
    exact ⟨names, name, below, ending, rfl⟩
  · rintro ⟨names, name, below, ending, rfl⟩
    rw [List.getLast?_concat]
    exact ⟨⟨names, name, below, rfl⟩, ending⟩

/-- No source file is chosen twice, also not as a text. -/
lemma nodup_render_sourcesAt :
    ((sourcesAt tree directory extensions exclusions).map Path.render).Nodup := by
  have normal {path : Path} (mem : path ∈ sourcesAt tree directory extensions exclusions) :
      Path.IsNormal path := by
    obtain ⟨names, name, below, -, rfl⟩ := (mem_sourcesAt_iff proper isDirectory).mp mem
    obtain ⟨entry, standing⟩ := below.standing
    exact proper.normal_of_entry? standing
  refine List.Nodup.map_on (fun path mem other mem' same => ?_) ?_
  · rw [← Path.names_render (normal mem), same, Path.names_render (normal mem')]
  · rw [sourcesAt_directory proper isDirectory]
    exact (proper.wellFormed.1.filter _).filter _

end Sources

/-- The source files below a directory are chosen among the entries below it. -/
lemma sourceFiles_directory {disk : Disk} {extensions : List String} (proper : disk.tree.IsProper)
    (isDirectory : disk.tree.entry? directory = some .directory) :
    sourceFiles disk (Path.render directory) (.ok (.ofTexts extensions)) exclusions
      = .ok (((sourcesAt disk.tree directory extensions exclusions).map Path.render).mergeSort
          fun a b => a ≤ b) := by
  refine sourceFiles_eq ?_ extensions exclusions
  rw [Disk.resolve_render, Path.names_render (proper.normal_of_entry? isDirectory),
    proper.resolve_directory isDirectory]

/-- The source files below a directory are what a pruning walk lists under their endings, sorted as
texts. -/
theorem sourceFiles_eq_pruned (disk : Disk) (extensions exclusions : List String) {directory : Path}
    (proper : disk.tree.IsProper) (isDirectory : disk.tree.entry? directory = some .directory)
    (deep : ∀ listed ∈ disk.tree.entries, listed.1.length ≤ depth) :
    sourceFiles disk (Path.render directory) (.ok (.ofTexts extensions)) exclusions
      = .ok ((((pruned disk.tree exclusions depth directory).filter fun file =>
          extensions.any (Text.endsWith (file.getLast?.getD ""))).map Path.render).mergeSort
            fun a b => a ≤ b) := by
  have nodup : ((sourcesAt disk.tree directory extensions exclusions).map Path.render).Nodup :=
    nodup_render_sourcesAt proper isDirectory
  have walked : (pruned disk.tree exclusions depth directory).Perm
      ((disk.tree.entries.map (·.1)).filter (isSourceEntry disk.tree directory exclusions)) :=
    pruned_perm proper.wellFormed deep
  rw [sourceFiles_directory proper isDirectory]
  rw [sourcesAt_directory proper isDirectory] at nodup ⊢
  -- Two sorted lists with the same texts are equal.
  have same := ((walked.filter fun file =>
    extensions.any (Text.endsWith (file.getLast?.getD ""))).map Path.render).symm
  refine congrArg Except.ok ((Command.pairwise_lt_mergeSort nodup).eq_of_mem_iff
    (Command.pairwise_lt_mergeSort (same.nodup nodup)) fun file => ?_)
  rw [List.mem_mergeSort, List.mem_mergeSort, same.mem_iff]

end ExportCover.Discovery
