import ExportCover.FileTree.Resolve
import ExportCover.Proofs.Path.Denotation

/-!
# Relative paths

The way from a directory to a path below it is what stands behind the directory on the path
(`relative_append`), so that it makes no difference whether a path below the directory is cut or the
way to it is looked for (`below?_getD`). The text of a way starts with the names of a folder exactly
if the way itself does and goes on (`startsWith_renderNames_iff`). A way can be followed back from
its text (`follow_shown`, `ofText_join`), unless a backslash in a name was shown as a separator.
-/

namespace ExportCover

namespace Path

/-- A path shares all of itself with the paths below it. -/
lemma sharedLength_append (base : Path) (names : List String) :
    sharedLength base (base ++ names) = base.length := by
  induction base with
  | nil => cases names <;> rfl
  | cons name rest ih => simp [sharedLength, ih]

/-- The way to a path below a directory goes down only. -/
lemma relative_append (base : Path) (names : List String) :
    relative (base ++ names) base = names := by
  rw [relative, sharedLength_append, Nat.sub_self, List.replicate_zero, List.nil_append,
    List.drop_left]

/-- A path is below a base by the names that come after it. -/
lemma below?_eq_some_iff {path base : Path} {names : List String} :
    below? path base = some names ↔ path = base ++ names := by
  rw [below?]
  constructor
  · intro cut
    split at cut
    next isPrefix =>
      obtain ⟨rest, rfl⟩ := List.isPrefixOf_iff_prefix.mp isPrefix
      cases cut
      rw [List.drop_left]
    next => cases cut
  · rintro rfl
    rw [if_pos (List.isPrefixOf_iff_prefix.mpr (List.prefix_append _ _)), List.drop_left]

/-- A path that can be cut behind a directory is cut where the way to it begins. -/
lemma below?_getD (path base : Path) :
    (below? path base).getD (relative path base) = relative path base := by
  cases cut : below? path base with
  | none => rfl
  | some names => rw [below?_eq_some_iff.mp cut, relative_append, Option.getD_some]

/-- A way that does not start with a step back goes down only. -/
lemma relative_eq_cons_iff {place base : Path} {name : String} {rest : List String}
    (ne_up : name ≠ "..") : relative place base = name :: rest ↔ place = base ++ name :: rest := by
  constructor
  · intro way
    obtain ⟨shared, le, _⟩ := take_sharedLength base place
    cases back : base.length - sharedLength base place with
    | succ n =>
      rw [relative, back, List.replicate_succ, List.cons_append] at way
      exact absurd (List.cons.inj way).1.symm ne_up
    | zero =>
      rw [relative, back, List.replicate_zero, List.nil_append] at way
      have whole : sharedLength base place = base.length := by omega
      rw [whole, List.take_length] at shared
      rw [← way, whole]
      calc place = place.take base.length ++ place.drop base.length :=
            (List.take_append_drop _ _).symm
        _ = base ++ place.drop base.length := by rw [← shared]
  · rintro rfl
    exact relative_append base _

/-- The text of a way is made of characters of the place, dots and separators. -/
lemma notMem_renderNames_relative {c : Char} (ne_dot : c ≠ '.') (ne_slash : c ≠ '/') {place : Path}
    (free : ∀ name ∈ place, c ∉ name.toList) (base : Path) :
    c ∉ (renderNames (relative place base)).toList := by
  rw [renderNames]
  split
  · simpa using ne_dot
  · exact notMem_intercalate ne_slash (notMem_of_mem_relative ne_dot free)

/-- A relative text starts with the names of a directory exactly if its own names do and go on. -/
lemma startsWith_renderNames_iff {names' folder : List String}
    (steps : ∀ name ∈ names', IsStep name) (folderSteps : ∀ name ∈ folder, IsStep name)
    (below : folder ≠ []) :
    Text.startsWith (renderNames names') ("/".intercalate folder ++ "/") ↔
      ∃ rest, rest ≠ [] ∧ names' = folder ++ rest := by
  rw [Text.startsWith_iff]
  constructor
  · rintro ⟨text, shown⟩
    have split : names' = folder ++ names text := by
      have come := names_append_slash ("/".intercalate folder) text
      rwa [← shown, names_renderNames steps, names_intercalate folderSteps] at come
    refine ⟨names text, fun nothing => ?_, split⟩
    rw [nothing, List.append_nil] at split
    -- The text of the directory itself is shorter.
    have length := congrArg String.length shown
    rw [split, renderNames, if_neg (by simpa using below)] at length
    have slash : "/".length = 1 := rfl
    rw [String.length_append, String.length_append] at length
    omega
  · rintro ⟨rest, more, rfl⟩
    refine ⟨"/".intercalate rest, ?_⟩
    rw [renderNames, if_neg (by simp [below]), String.intercalate_append_of_ne_nil below more]

/-- A place without backslashes is found again from the way in which it is shown. -/
lemma follow_shown (base : Path) {home : Path} (normal : IsNormal home)
    (plain : ∀ name ∈ home, '\\' ∉ name.toList) :
    follow base (names (Specifier.foldSeparators (renderNames (relative home base)))) = home := by
  have folded := notMem_renderNames_relative (by decide) (by decide) plain base
  rw [Specifier.foldSeparators_eq_self folded, names_renderNames (isStep_of_mem_relative normal),
    follow_relative base normal]

/-- The way from one place to another, both given as texts, without looking at the file tree. -/
def between (cwd : Path) (text start : String) : Except Fault String :=
  if text == "" then .error .emptyPath
  else .ok (renderNames (relative (ofText cwd text) (ofText cwd start)))

/-- Between two canonical places the way is written as it is. -/
lemma between_render {cwd place base : Path} (normal : IsNormal place)
    (baseNormal : IsNormal base) :
    between cwd (render place) (render base) = .ok (renderNames (relative place base)) := by
  have ne_empty : render place ≠ "" := by
    intro empty
    cases (empty ▸ isAbsolute_render place : isAbsolute "" = true)
  rw [between, if_neg (by simpa using ne_empty), ofText_render normal, ofText_render baseNormal]

/-- A text put behind a directory, unless it is named from the root. -/
def join (directory text : String) : String :=
  if isAbsolute text then text
  else if directory == "" || Text.endsWith directory "/" then directory ++ text
  else directory ++ "/" ++ text

/-- The names of a directory stand before those of what is put behind it. -/
lemma names_join {text : String} (isRelative : isAbsolute text = false) (directory : String) :
    names (join directory text) = names directory ++ names text := by
  rw [join, if_neg (by simp [isRelative])]
  split
  next ended =>
    obtain empty | ends := (Bool.or_eq_true ..).mp ended
    · rw [beq_iff_eq.mp empty, String.empty_append, names_empty, List.nil_append]
    · obtain ⟨before, rfl⟩ := Text.endsWith_iff.mp ends
      rw [names_append_slash, names_slash]
  next => exact names_append_slash directory text

/-- A path behind an absolute directory is absolute. -/
lemma isAbsolute_join {directory text : String} (rooted : isAbsolute directory)
    (isRelative : isAbsolute text = false) : isAbsolute (join directory text) := by
  obtain ⟨rest, rfl⟩ := isAbsolute_iff.mp rooted
  rw [join, if_neg (by simp [isRelative])]
  split
  next => exact isAbsolute_iff.mpr ⟨rest ++ text, by rw [String.append_assoc]⟩
  next => exact isAbsolute_iff.mpr ⟨rest ++ "/" ++ text, by simp only [String.append_assoc]⟩

/-- Names shown as a relative text do not start at the root. -/
lemma isAbsolute_renderNames {names' : List String} (steps : ∀ name ∈ names', IsStep name) :
    isAbsolute (renderNames names') = false := by
  cases names' with
  | nil => rfl
  | cons name rest =>
    obtain ⟨after, shown⟩ : ∃ after, renderNames (name :: rest) = name ++ after := by
      cases rest with
      | nil => exact ⟨"", by simp [renderNames]⟩
      | cons next rest =>
        refine ⟨"/" ++ "/".intercalate (next :: rest), ?_⟩
        rw [← String.append_assoc, ← String.intercalate_cons_cons]
        rfl
    have step := steps name List.mem_cons_self
    cases chars : name.toList with
    | nil => exact absurd (String.toList_eq_nil_iff.mp chars) step.ne_empty
    | cons c cs =>
      rw [Bool.eq_false_iff, ne_eq, isAbsolute_iff]
      rintro ⟨behind, rooted⟩
      have heads : c :: (cs ++ after.toList) = '/' :: behind.toList := by
        simpa [chars] using congrArg String.toList (shown.symm.trans rooted)
      -- The name would start with the separator.
      obtain ⟨rfl, _⟩ := List.cons.inj heads
      exact step.no_slash (by simp [chars])

/-- A way that is put behind its start ends at the place that it leads to. -/
lemma ofText_join {cwd place base : Path} (normal : IsNormal place) (baseNormal : IsNormal base) :
    ofText cwd (join (render base) (renderNames (relative place base))) = place := by
  have steps : ∀ name ∈ relative place base, IsStep name := isStep_of_mem_relative normal
  have isRelative := isAbsolute_renderNames steps
  rw [ofText, if_pos (isAbsolute_join (isAbsolute_render base) isRelative), names_join isRelative,
    names_render baseNormal, names_renderNames steps, follow_append, follow_down _ fun name mem =>
      (baseNormal name mem).2, List.nil_append, follow_relative base normal]

end Path

namespace Disk

/-- A path text is shown as the way from the root to the place that it names. -/
lemma relativeTo_eq (disk : Disk) (root text : String) : disk.relativeTo root text = (do
    let base ← disk.resolve root
    let place ← disk.resolve text
    return Specifier.foldSeparators (Path.renderNames (Path.relative place base))) := by
  simp only [relativeTo, Path.below?_getD]
  rfl

end Disk

end ExportCover
