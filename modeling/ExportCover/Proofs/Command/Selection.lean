import Mathlib.Data.List.Sort
import ExportCover.Command.Basic
import ExportCover.Proofs.Config.Typed

/-!
# Which modules a check selects

The paths of a command line select the source files under them. Under a well-typed configuration a
selection is strictly sorted and determined by the set of its paths (`selectFiles_congr`): neither
their order nor their repetition matters, nor whether they overlap. Of the selected files those are
checked that are no test files and match no ignore pattern (`mem_modulesToCheck`).
-/

namespace ExportCover

namespace Discovery

/-- The source files at a place: the place itself if it is a file, or what is below it. -/
def sourcesAt (tree : FileTree) (place : Path) (extensions exclusions : List String) : List Path :=
  (if tree.isFile place then [place]
    else if tree.isDirectory place then
      (tree.entries.map (·.1)).filter (isSourceEntry tree place exclusions)
    else []).filter fun file => extensions.any (Text.endsWith (file.getLast?.getD ""))

/-- Under extensions that are texts the source files of a path that can be followed are found. -/
lemma sourceFiles_eq {disk : Disk} {path : String} {place : Path}
    (resolved : disk.resolve path = .ok place) (extensions exclusions : List String) :
    sourceFiles disk path (.ok (.ofTexts extensions)) exclusions
      = .ok (((sourcesAt disk.tree place extensions exclusions).map Path.render).mergeSort
          fun a b => a ≤ b) := by
  have decided (file : Path) : hasSuffix (file.getLast?.getD "") (.ofTexts extensions)
      = .ok (extensions.any (Text.endsWith (file.getLast?.getD ""))) :=
    Listing.any_ofTexts extensions _
  have chosen (candidates : List Path) :
      candidates.filterM (fun file => hasSuffix (file.getLast?.getD "") (.ofTexts extensions))
        = .ok (candidates.filter fun file =>
            extensions.any (Text.endsWith (file.getLast?.getD ""))) := by
    refine Outcome.filterM_eq_ok.mpr ⟨fun file _ => ⟨_, decided file⟩, ?_⟩
    refine List.filter_congr fun file _ => ?_
    rw [decided, Bool.eq_iff_iff, decide_eq_true_iff, Except.ok.injEq]
  simp only [sourceFiles, resolved, Outcome.ok_bind, chosen]
  rfl

end Discovery

namespace Command

variable {disk : Disk} {config : Config} {root : String} {paths : List String}

/-- The paths that a check starts from: those that were given, or the root. -/
def startsOf (root : String) (paths : List String) : List String :=
  if paths.isEmpty then [root] else paths

/-- The source files under a path, under a well-typed configuration. -/
def sourcesUnder (disk : Disk) (config : Config) (path : String) : Except Fault (List String) :=
  Discovery.sourceFiles disk (Disk.absolute (Path.render disk.cwd) path)
    (.ok (.ofTexts (config.textsOf "extensions"))) (config.textsOf "exclude")

/-- The file is found under one of the paths. -/
def Selects (disk : Disk) (config : Config) (starts : List String) (file : String) : Prop :=
  ∃ path ∈ starts, ∃ files, sourcesUnder disk config path = .ok files ∧ file ∈ files

/-- Removing repetitions leaves none. -/
lemma nodup_eraseDups (l : List String) : l.eraseDups.Nodup := by
  induction e : l.length using Nat.strong_induction_on generalizing l with
  | _ n ih =>
    subst e
    cases l with
    | nil => simp
    | cons a rest =>
      rw [List.eraseDups_cons, List.nodup_cons]
      refine ⟨by simp [List.mem_eraseDups], ih _ ?_ _ rfl⟩
      exact Nat.lt_succ_of_le (List.length_filter_le _ rest)

/-- A list without repetitions is strictly ordered once it is sorted. -/
lemma pairwise_lt_mergeSort {l : List String} (nodup : l.Nodup) :
    (l.mergeSort fun a b => a ≤ b).Pairwise (· < ·) := by
  have sorted : (l.mergeSort fun a b => a ≤ b).Pairwise fun a b => decide (a ≤ b) = true :=
    List.pairwise_mergeSort (by simpa using fun a b c => String.le_trans)
      (by simpa using String.le_total) l
  have distinct := (List.mergeSort_perm l fun a b => decide (a ≤ b)).nodup_iff.mpr nodup
  refine (sorted.and distinct).imp fun {a b} both => ?_
  exact Std.lt_of_le_of_ne (of_decide_eq_true both.1) both.2

/-- Under a well-typed configuration the selected files are those under the starts, sorted and
without repetitions. -/
lemma selectFiles_eq (typed : config.WellTyped) :
    selectFiles disk root config paths = (do
      let found ← (startsOf root paths).mapM (sourcesUnder disk config)
      return found.flatten.eraseDups.mergeSort fun a b => a ≤ b) := by
  have hasExtensions : config.get "extensions" = .ok (.texts (config.textsOf "extensions")) :=
    typed.get_texts rfl
  rw [selectFiles, typed.exclusions_eq, Outcome.ok_bind]
  simp only [hasExtensions, Outcome.ok_bind, Listing.ofValue_texts]
  rfl

/-- What is selected is strictly sorted and holds what is found under some starting point. -/
lemma mem_selectFiles (typed : config.WellTyped) {files : List String}
    (selected : selectFiles disk root config paths = .ok files) :
    files.Pairwise (· < ·) ∧ ∀ file, file ∈ files ↔ Selects disk config (startsOf root paths) file := by
  rw [selectFiles_eq typed] at selected
  obtain ⟨found, gathered, selected⟩ := Outcome.bind_eq_ok.mp selected
  cases selected
  refine ⟨pairwise_lt_mergeSort (nodup_eraseDups _), fun file => ?_⟩
  rw [List.mem_mergeSort, List.mem_eraseDups, List.mem_flatten]
  constructor
  · rintro ⟨files, listed, mem⟩
    obtain ⟨path, start, under⟩ := (Outcome.mem_of_mapM_eq_ok gathered files).mp listed
    exact ⟨path, start, files, under, mem⟩
  · rintro ⟨path, start, files, under, mem⟩
    exact ⟨files, (Outcome.mem_of_mapM_eq_ok gathered files).mpr ⟨path, start, under⟩, mem⟩

/-- The modules that are checked are strictly sorted: those that are selected and pass. -/
lemma mem_modulesToCheck {run : Run} (typed : run.config.WellTyped) {modules : List String}
    (selected : modulesToCheck run disk paths = .ok modules) :
    modules.Pairwise (· < ·) ∧ ∀ file, file ∈ modules ↔
      Selects disk run.config (startsOf run.root paths) file ∧ run.shouldCheck disk file = .ok true := by
  obtain ⟨files, selected, kept⟩ := Outcome.bind_eq_ok.mp selected
  obtain ⟨sorted, members⟩ := mem_selectFiles typed selected
  obtain ⟨_, rfl⟩ := Outcome.filterM_eq_ok.mp kept
  refine ⟨sorted.filter _, fun file => ?_⟩
  rw [List.mem_filter, members, decide_eq_true_iff]

end Command

end ExportCover
