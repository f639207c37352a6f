import Mathlib.Data.List.TakeWhile
import Mathlib.Tactic.Lemma
import ExportCover.Path.Basic

/-!
# Names on a path

How path texts come apart into names and how names are followed. A text splits at every separator
(`names_append_slash`), its last name is what follows the last of them (`baseName_append`), and the
way from one directory to another, followed from the first, ends at the second
(`follow_relative`).
-/

namespace ExportCover

namespace Text

/-- A text ends with another exactly if something stands before it. -/
lemma endsWith_iff {s ending : String} : endsWith s ending ↔ ∃ before, s = before ++ ending := by
  rw [endsWith, List.isSuffixOf_iff_suffix]
  constructor
  · rintro ⟨before, e⟩
    refine ⟨String.ofList before, ?_⟩
    rw [← String.toList_inj, String.toList_append, String.toList_ofList, e]
  · rintro ⟨before, rfl⟩
    rw [String.toList_append]
    exact List.suffix_append _ _

/-- A text starts with another exactly if something stands after it. -/
lemma startsWith_iff {s start : String} : startsWith s start ↔ ∃ rest, s = start ++ rest := by
  rw [startsWith, List.isPrefixOf_iff_prefix]
  constructor
  · rintro ⟨rest, e⟩
    refine ⟨String.ofList rest, ?_⟩
    rw [← String.toList_inj, ← e, String.toList_append, String.toList_ofList]
  · rintro ⟨rest, rfl⟩
    rw [String.toList_append]
    exact List.prefix_append _ _

/-- The characters of a text without a separator are all different from it. -/
lemma bne_of_notMem {sep : Char} {cs : List Char} (free : sep ∉ cs) : ∀ c ∈ cs, c != sep := by
  intro c mem
  have ne : c ≠ sep := fun e => free (e ▸ mem)
  simpa using ne

/-- A text is cut at its last separator. -/
lemma splitLast_append {sep : Char} {s last : String} {before : List Char}
    (e : s.toList = before ++ [sep] ++ last.toList) (free : sep ∉ last.toList) :
    splitLast sep s = (String.ofList (before ++ [sep]), last) := by
  -- The text is read from its end, where the last name stands in front of the separator.
  have tail : s.toList.reverse.takeWhile (· != sep) = last.toList.reverse := by
    rw [e, List.reverse_append, List.reverse_append, List.reverse_singleton,
      List.takeWhile_append_of_pos (bne_of_notMem (by simpa using free)), List.singleton_append,
      List.takeWhile_cons_of_neg (by simp), List.append_nil]
  have length : s.toList.length - last.toList.length = (before ++ [sep]).length := by
    rw [e, List.length_append, Nat.add_sub_cancel]
  simp only [splitLast, tail, List.reverse_reverse, String.ofList_toList]
  rw [length, e, List.take_left]

/-- A text without the separator has no part before its last one. -/
lemma splitLast_of_notMem {sep : Char} {last : String} (free : sep ∉ last.toList) :
    splitLast sep last = ("", last) := by
  have all : last.toList.reverse.takeWhile (· != sep) = last.toList.reverse :=
    List.takeWhile_eq_self_iff.mpr (bne_of_notMem (by simpa using free))
  simp [splitLast, all]

end Text

namespace Path

/-- An absolute path starts with a slash. -/
lemma isAbsolute_iff {text : String} : isAbsolute text ↔ ∃ rest, text = "/" ++ rest :=
  Text.startsWith_iff

/-- A rendered path starts at the root. -/
@[simp]
lemma isAbsolute_render (path : Path) : isAbsolute (render path) :=
  isAbsolute_iff.mpr ⟨_, rfl⟩

/-- A separator separates the names before it from those after it. -/
lemma names_append_slash (a b : String) : names (a ++ "/" ++ b) = names a ++ names b := by
  have split : (a ++ "/" ++ b).toList.splitOn '/'
      = a.toList.splitOn '/' ++ b.toList.splitOn '/' := by
    have e : (a ++ "/" ++ b).toList = a.toList ++ '/' :: b.toList := by simp
    rw [e, List.splitOn_append_cons_self]
  rw [names, split, List.map_append, List.filter_append, names, names]

/-- The empty path has no names. -/
@[simp]
lemma names_empty : names "" = [] := by
  simp [names]

/-- The path `.` has no names. -/
@[simp]
lemma names_here : names "." = [] := by
  rw [names, List.splitOn_eq_singleton (by decide)]
  rfl

/-- A slash at the end adds no name. -/
lemma names_slash (text : String) : names (text ++ "/") = names text := by
  have split := names_append_slash text ""
  rwa [String.append_empty, names_empty, List.append_nil] at split

/-- A name that a step can take: it is not empty, not the directory itself and has no separator. -/
structure IsStep (name : String) : Prop where
  ne_empty : name ≠ ""
  ne_here : name ≠ "."
  no_slash : '/' ∉ name.toList

/-- A part of a text that was split does not hold the separator. -/
lemma notMem_of_mem_splitOn {sep : Char} {cs part : List Char} (mem : part ∈ cs.splitOn sep) :
    sep ∉ part := by
  induction cs generalizing part with
  | nil => simp_all
  | cons c cs ih =>
    rw [List.splitOn_cons_eq_if_modifyHead] at mem
    split at mem
    next =>
      obtain rfl | mem := List.mem_cons.mp mem
      · exact List.not_mem_nil
      · exact ih mem
    next ne =>
      obtain ⟨first, rest, parts⟩ := List.exists_cons_of_ne_nil (List.splitOn_ne_nil sep cs)
      rw [parts] at ih mem
      obtain rfl | mem := List.mem_cons.mp mem
      · have apart : sep ≠ c := fun same => ne (by simp [same])
        exact List.not_mem_cons_of_ne_of_not_mem apart (ih List.mem_cons_self)
      · exact ih (List.mem_cons_of_mem _ mem)

/-- The names in a path text are steps. -/
lemma isStep_of_mem_names {text : String} : ∀ name ∈ names text, IsStep name := by
  intro name mem
  obtain ⟨mem, proper⟩ := List.mem_filter.mp mem
  obtain ⟨part, among, rfl⟩ := List.mem_map.mp mem
  obtain ⟨ne_empty, ne_here⟩ : String.ofList part ≠ "" ∧ String.ofList part ≠ "." := by
    simpa using proper
  refine ⟨ne_empty, ne_here, ?_⟩
  rw [String.toList_ofList]
  exact notMem_of_mem_splitOn among

/-- A path without `..` and without names that a text could not spell. -/
def IsNormal (path : Path) : Prop :=
  ∀ name ∈ path, IsStep name ∧ name ≠ ".."

/-- Whether a name is a step can be computed. -/
instance (name : String) : Decidable (IsStep name) :=
  decidable_of_iff (name ≠ "" ∧ name ≠ "." ∧ '/' ∉ name.toList)
    ⟨fun ⟨ne_empty, ne_here, no_slash⟩ => ⟨ne_empty, ne_here, no_slash⟩,
      fun step => ⟨step.ne_empty, step.ne_here, step.no_slash⟩⟩

/-- Whether a path can be spelled can be computed. -/
instance (path : Path) : Decidable (IsNormal path) :=
  inferInstanceAs (Decidable (∀ name ∈ path, IsStep name ∧ name ≠ ".."))

/-- The root can be spelled. -/
lemma IsNormal.nil : IsNormal [] :=
  fun _ mem => absurd mem List.not_mem_nil

/-- The start of a path that can be spelled can be spelled. -/
lemma IsNormal.of_append {init rest : Path} (normal : IsNormal (init ++ rest)) : IsNormal init :=
  fun name mem => normal name (List.mem_append_left _ mem)

/-- The directory of a path that can be spelled can be spelled. -/
lemma IsNormal.dropLast {path : Path} (normal : IsNormal path) : IsNormal path.dropLast :=
  fun name mem => normal name (List.dropLast_subset _ mem)

/-- A path that can be spelled still can with a step at its end. -/
lemma IsNormal.concat {path : Path} {name : String} (normal : IsNormal path) (step : IsStep name)
    (ne_up : name ≠ "..") : IsNormal (path ++ [name]) := by
  intro other mem
  obtain mem | last := List.mem_append.mp mem
  · exact normal other mem
  · cases List.mem_singleton.mp last
    exact ⟨step, ne_up⟩

/-- A step is one name. -/
lemma names_step {name : String} (step : IsStep name) : names name = [name] := by
  rw [names, List.splitOn_eq_singleton step.no_slash]
  simp [step.ne_empty, step.ne_here]

/-- Joined names come apart again. -/
lemma names_intercalate {names' : List String} (steps : ∀ name ∈ names', IsStep name) :
    names ("/".intercalate names') = names' := by
  induction names' with
  | nil => simp
  | cons name rest ih =>
    have step := steps name List.mem_cons_self
    have ih := ih fun name mem => steps name (List.mem_cons_of_mem _ mem)
    cases rest with
    | nil => rw [String.intercalate_singleton, names_step step]
    | cons next rest =>
      rw [String.intercalate_cons_cons, names_append_slash, ih, names_step step]
      rfl

/-- A rendered path comes apart into its names. -/
lemma names_render {path : Path} (normal : IsNormal path) : names (render path) = path := by
  have split := names_append_slash "" ("/".intercalate path)
  rw [names_empty, List.nil_append, names_intercalate fun name mem => (normal name mem).1] at split
  exact split

/-- Names that are shown as a relative text come apart again. -/
lemma names_renderNames {names' : List String} (steps : ∀ name ∈ names', IsStep name) :
    names (renderNames names') = names' := by
  rw [renderNames]
  split
  next none => rw [names_here, List.isEmpty_iff.mp none]
  next => exact names_intercalate steps

/-- Texts that stand before a last name: nothing, or something that ends with a separator. -/
inductive IsDirectory : String → Prop where
  | none : IsDirectory ""
  | some (before : String) : IsDirectory (before ++ "/")

/-- A directory text stays one behind another. -/
lemma IsDirectory.below {directory : String} (before : String) (dir : IsDirectory directory) :
    IsDirectory (before ++ "/" ++ directory) := by
  cases dir with
  | none =>
    rw [String.append_empty]
    exact .some before
  | some inner =>
    rw [← String.append_assoc]
    exact .some (before ++ "/" ++ inner)

/-- A text is cut after its directory. -/
lemma splitLast_directory {directory last : String} (dir : IsDirectory directory)
    (free : '/' ∉ last.toList) : Text.splitLast '/' (directory ++ last) = (directory, last) := by
  cases dir with
  | none => rw [String.empty_append, Text.splitLast_of_notMem free]
  | some before =>
    have e : (before ++ "/" ++ last).toList = before.toList ++ ['/'] ++ last.toList := by simp
    rw [Text.splitLast_append e free, Prod.mk.injEq, ← String.toList_inj]
    simp

/-- Behind a directory stands the last name. -/
lemma baseName_append {directory last : String} (dir : IsDirectory directory)
    (free : '/' ∉ last.toList) : baseName (directory ++ last) = last := by
  rw [baseName, splitLast_directory dir free]

/-- The part before the last name is the directory. -/
lemma directoryPart_append {directory last : String} (dir : IsDirectory directory)
    (free : '/' ∉ last.toList) : directoryPart (directory ++ last) = directory := by
  rw [directoryPart, splitLast_directory dir free]

/-- Every text is a directory and a last name. -/
lemma exists_directory (text : String) :
    ∃ directory last, IsDirectory directory ∧ '/' ∉ last.toList ∧ text = directory ++ last := by
  by_cases mem : '/' ∈ text.toList.reverse
  · obtain ⟨after, before, e, free⟩ := List.eq_append_cons_of_mem mem
    have e' : text.toList = before.reverse ++ '/' :: after.reverse := by
      rw [← List.reverse_reverse text.toList, e]
      simp
    refine ⟨_, String.ofList after.reverse, .some (String.ofList before.reverse), ?_, ?_⟩
    · simpa using free
    · rw [← String.toList_inj, e']
      simp
  · exact ⟨"", text, .none, by simpa using mem, by simp⟩

/-- The directory of a text from the root is named from the root. -/
lemma isAbsolute_directoryPart {text : String} (absolute : isAbsolute text) :
    isAbsolute (directoryPart text) := by
  obtain ⟨directory, last, dir, free, rfl⟩ := exists_directory text
  rw [directoryPart_append dir free]
  obtain ⟨rest, e⟩ := isAbsolute_iff.mp absolute
  have chars := congrArg String.toList e
  cases dir with
  | none =>
    -- The text starts with a separator, so that it cannot be all last name.
    rw [String.empty_append] at chars
    exact absurd (by simp [chars]) free
  | some before =>
    simp only [isAbsolute, Text.startsWith]
    cases first : before.toList with
    | nil => simp [first]
    | cons c cs =>
      have head : c = '/' := by
        simp only [String.toList_append, first] at chars
        exact (List.cons.inj chars).1
      simp [first, head]

/-- A directory text ends a name. -/
lemma names_directory {directory : String} (dir : IsDirectory directory) (last : String) :
    names (directory ++ last) = names directory ++ names last := by
  cases dir with
  | none => simp
  | some before => rw [names_append_slash, names_slash]

/-- Joined names are the directory of the last of them and that name. -/
lemma intercalate_concat {init : List String} (steps : ∀ name ∈ init, IsStep name) (last : String) :
    ∃ directory, IsDirectory directory ∧ directory ≠ "/" ∧ names directory = init ∧
      "/".intercalate (init ++ [last]) = directory ++ last := by
  cases init with
  | nil => exact ⟨"", .none, by decide, names_empty, by simp⟩
  | cons first rest =>
    have split : names ("/".intercalate (first :: rest) ++ "/") = first :: rest := by
      rw [names_slash, names_intercalate steps]
    refine ⟨"/".intercalate (first :: rest) ++ "/", .some _, ?_, split, ?_⟩
    · intro e
      have root := names_slash ""
      rw [String.empty_append, names_empty] at root
      rw [e, root] at split
      cases split
    · rw [String.intercalate_append_of_ne_nil (List.cons_ne_nil _ _) (List.cons_ne_nil _ _),
        String.intercalate_singleton]

/-- A rendered path is its directory and its last name. -/
lemma render_concat {init : Path} (normal : IsNormal init) (last : String) :
    ∃ directory, IsDirectory directory ∧ names directory = init ∧
      render (init ++ [last]) = directory ++ last := by
  obtain ⟨directory, dir, _, split, e⟩ :=
    intercalate_concat (fun name mem => (normal name mem).1) last
  refine ⟨"/" ++ directory, dir.below "", ?_, ?_⟩
  · have split' := names_append_slash "" directory
    rwa [names_empty, List.nil_append, split] at split'
  · rw [render, e, String.append_assoc]

/-- Joining names adds no character but the separator. -/
lemma notMem_intercalate {c : Char} (ne : c ≠ '/') {names' : List String}
    (free : ∀ name ∈ names', c ∉ name.toList) : c ∉ ("/".intercalate names').toList := by
  induction names' with
  | nil => simp
  | cons name rest ih =>
    have first := free name List.mem_cons_self
    have ih := ih fun name mem => free name (List.mem_cons_of_mem _ mem)
    cases rest with
    | nil => rwa [String.intercalate_singleton]
    | cons next rest =>
      rw [String.intercalate_cons_cons, String.toList_append, String.toList_append]
      simp only [List.mem_append, not_or]
      exact ⟨⟨first, by simpa using ne⟩, ih⟩

/-- Every character of a name is one of the joined names. -/
lemma mem_intercalate {c : Char} {name : String} {names' : List String} (mem : name ∈ names')
    (among : c ∈ name.toList) : c ∈ ("/".intercalate names').toList := by
  induction names' with
  | nil => cases mem
  | cons first rest ih =>
    cases rest with
    | nil =>
      cases List.mem_singleton.mp mem
      rwa [String.intercalate_singleton]
    | cons next rest =>
      rw [String.intercalate_cons_cons, String.toList_append, String.toList_append]
      simp only [List.mem_append]
      obtain rfl | mem := List.mem_cons.mp mem
      · exact .inl (.inl among)
      · exact .inr (ih mem)

/-- A character that a rendered path lacks is in none of its names. -/
lemma notMem_of_render {c : Char} {path : Path} (free : c ∉ (render path).toList) :
    ∀ name ∈ path, c ∉ name.toList := by
  intro name mem among
  refine free ?_
  rw [render, String.toList_append]
  exact List.mem_append_right _ (mem_intercalate mem among)

/-- Names are followed one after the other. -/
lemma follow_append (path : Path) (a b : List String) :
    follow path (a ++ b) = follow (follow path a) b :=
  List.foldl_append

/-- Names without `..` are put behind the path. -/
lemma follow_down (path : Path) {names' : List String} (down : ∀ name ∈ names', name ≠ "..") :
    follow path names' = path ++ names' := by
  induction names' generalizing path with
  | nil => rw [List.append_nil]; rfl
  | cons name rest ih =>
    have ne := down name List.mem_cons_self
    have first : step path name = path ++ [name] := by simp [step, ne]
    have rest' := ih (path ++ [name]) fun name mem => down name (List.mem_cons_of_mem _ mem)
    rw [follow, List.foldl_cons, first, ← follow, rest', List.append_assoc, List.singleton_append]

/-- A rendered path leads to where it says, from every working directory. -/
lemma ofText_render {cwd path : Path} (normal : IsNormal path) :
    ofText cwd (render path) = path := by
  rw [ofText, if_pos (isAbsolute_render path), names_render normal,
    follow_down [] fun name mem => (normal name mem).2]
  rfl

/-- The name `.` is left out of the names in a text. -/
lemma here_notMem_names (text : String) : "." ∉ names text := by
  simp [names]

/-- Following names reaches no name that was not there. -/
lemma notMem_follow {name : String} {path : Path} {names' : List String} (free : name ∉ path)
    (free' : name ∉ names') : name ∉ follow path names' := by
  induction names' generalizing path with
  | nil => exact free
  | cons first rest ih =>
    obtain ⟨ne, free'⟩ := not_or.mp (List.mem_cons.not.mp free')
    refine ih ?_ free'
    rw [step]
    split
    · exact fun mem => free ((List.dropLast_sublist path).subset mem)
    · simpa [free] using ne

/-- A path text from a directory without `.` reaches no such name. -/
lemma here_notMem_ofText {cwd : Path} (plain : "." ∉ cwd) (text : String) :
    "." ∉ ofText cwd text := by
  refine notMem_follow ?_ (here_notMem_names text)
  split
  · exact List.not_mem_nil
  · exact plain

/-- Names that can be spelled lead from a path that can be spelled to another one. -/
lemma IsNormal.follow {path : Path} {names' : List String} (normal : IsNormal path)
    (steps : ∀ name ∈ names', IsStep name) : IsNormal (Path.follow path names') := by
  induction names' generalizing path with
  | nil => exact normal
  | cons name rest ih =>
    obtain ⟨here, steps⟩ := List.forall_mem_cons.mp steps
    refine ih ?_ steps
    rw [step]
    split
    next => exact normal.dropLast
    next ne_up => exact normal.concat here (by simpa using ne_up)

/-- Going back drops names from the end. -/
lemma follow_up (path : Path) (n : Nat) :
    follow path (List.replicate n "..") = path.take (path.length - n) := by
  induction n generalizing path with
  | zero => rw [Nat.sub_zero, List.take_length]; rfl
  | succ n ih =>
    have first : step path ".." = path.take (path.length - 1) := by
      simp [step, List.dropLast_eq_take]
    rw [List.replicate_succ, follow, List.foldl_cons, first, ← follow, ih, List.length_take,
      List.take_take]
    congr 1
    omega

/-- The shared names stand at the start of both paths. -/
lemma take_sharedLength (a b : Path) :
    a.take (sharedLength a b) = b.take (sharedLength a b) ∧
      sharedLength a b ≤ a.length ∧ sharedLength a b ≤ b.length := by
  induction a generalizing b with
  | nil =>
    have none : sharedLength [] b = 0 := by cases b <;> rfl
    rw [none]
    exact ⟨rfl, Nat.zero_le _, Nat.zero_le _⟩
  | cons x xs ih =>
    cases b with
    | nil => exact ⟨rfl, Nat.zero_le _, Nat.zero_le _⟩
    | cons y ys =>
      rw [sharedLength]
      split
      next same =>
        obtain ⟨takes, left, right⟩ := ih ys
        rw [List.take_succ_cons, List.take_succ_cons, takes, beq_iff_eq.mp same, List.length_cons]
        exact ⟨rfl, Nat.succ_le_succ left, Nat.succ_le_succ right⟩
      next => exact ⟨rfl, Nat.zero_le _, Nat.zero_le _⟩

/-- The way from one directory to another ends there. -/
lemma follow_relative (start : Path) {target : Path} (normal : IsNormal target) :
    follow start (relative target start) = target := by
  obtain ⟨same, le, _⟩ := take_sharedLength start target
  have back : start.length - (start.length - sharedLength start target)
      = sharedLength start target := by omega
  rw [relative, follow_append, follow_up, back, same, follow_down, List.take_append_drop]
  intro name mem
  exact (normal name (List.mem_of_mem_drop mem)).2

/-- A name at the end of a path is not shared with a path that does not lead through it. -/
lemma sharedLength_concat {start init : Path} {last : String} (apart : ¬ init ++ [last] <+: start) :
    sharedLength start (init ++ [last]) = sharedLength start init := by
  induction init generalizing start with
  | nil =>
    cases start with
    | nil => rfl
    | cons x xs =>
      have ne : x ≠ last := by
        rintro rfl
        exact apart ⟨xs, rfl⟩
      simp [sharedLength, ne]
  | cons y ys ih =>
    cases start with
    | nil => rfl
    | cons x xs =>
      -- As long as the names agree the rest of the start does not lead through the rest either.
      by_cases e : x = y
      · subst e
        have apart' : ¬ ys ++ [last] <+: xs := by
          rintro ⟨rest, e⟩
          exact apart ⟨rest, by simp [← e]⟩
        simp [sharedLength, ih apart']
      · simp [sharedLength, e]

/-- The way to a file is the way to its directory and then its name. -/
lemma relative_concat {start init : Path} {last : String} (apart : ¬ init ++ [last] <+: start) :
    relative (init ++ [last]) start = relative init start ++ [last] := by
  obtain ⟨_, _, le⟩ := take_sharedLength start init
  rw [relative, relative, sharedLength_concat apart, List.drop_append_of_le_length le,
    List.append_assoc]

/-- The way to a path goes back or along names of the path. -/
lemma eq_or_mem_of_mem_relative {start target : Path} {name : String}
    (mem : name ∈ relative target start) : name = ".." ∨ name ∈ target := by
  obtain up | down := List.mem_append.mp mem
  · exact .inl (List.eq_of_mem_replicate up)
  · exact .inr (List.mem_of_mem_drop down)

/-- The names on the way to a path can be spelled. -/
lemma isStep_of_mem_relative {start target : Path} (normal : IsNormal target) :
    ∀ name ∈ relative target start, IsStep name := by
  intro name mem
  obtain rfl | mem := eq_or_mem_of_mem_relative mem
  · exact ⟨by decide, by decide, by decide⟩
  · exact (normal name mem).1

/-- The names on the way to a path are made of its own characters and of dots. -/
lemma notMem_of_mem_relative {c : Char} (ne_dot : c ≠ '.') {start target : Path}
    (free : ∀ name ∈ target, c ∉ name.toList) :
    ∀ name ∈ relative target start, c ∉ name.toList := by
  intro name mem
  obtain rfl | mem := eq_or_mem_of_mem_relative mem
  · simpa using ne_dot
  · exact free name mem

/-- Some names are shown joined. -/
lemma renderNames_concat (init : List String) (last : String) :
    renderNames (init ++ [last]) = "/".intercalate (init ++ [last]) := by
  simp [renderNames]

end Path

end ExportCover
