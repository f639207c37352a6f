import ExportCover.Proofs.FileTree.Normal

/-!
# Resolving what was resolved

A path is settled if no link stands on it. A settled path is its own canonical path, and a way that
is written to its end, without being cut short at a link that leads back to itself, ends at a
settled path (`canonicalWithin_settled`). So what a text resolves to, if it was not cut short,
resolves to itself (`Disk.resolve_settled`).
-/

namespace ExportCover

namespace FileTree

/-- A path that can be spelled and on which no link stands. -/
structure Settled (tree : FileTree) (path : Path) : Prop where
  normal : Path.IsNormal path
  noLink : ∀ {above name target}, above ++ [name] <+: path →
    tree.entry? (above ++ [name]) ≠ some (.link target)

/-- All places that are known of links are settled. -/
def KnowsSettled (tree : FileTree) (met : LinksMet) : Prop :=
  ∀ link known, met.lookup link = some (some known) → tree.Settled known.path

variable {tree : FileTree} {path : Path} {name : String} {names : List String} {here : Spelled}
  {met : LinksMet}

namespace Settled

/-- The root is settled. -/
lemma nil : tree.Settled [] where
  normal := .nil
  noLink inside := by simp at inside

/-- What is above a settled path is settled. -/
lemma of_prefix {above : Path} (settled : tree.Settled path) (inside : above <+: path) :
    tree.Settled above where
  normal name mem := settled.normal name (inside.subset mem)
  noLink inside' := settled.noLink (inside'.trans inside)

/-- The directory of a settled path is settled. -/
lemma dropLast (settled : tree.Settled path) : tree.Settled path.dropLast :=
  settled.of_prefix (List.dropLast_prefix path)

/-- A name below a settled path is settled unless it is a link. -/
lemma down (settled : tree.Settled path) (step : Path.IsStep name) (ne_up : name ≠ "..")
    (noLink : ∀ target, tree.entry? (path ++ [name]) ≠ some (.link target)) :
    tree.Settled (path ++ [name]) where
  normal := settled.normal.concat step ne_up
  noLink {above last target} inside := by
    obtain same | inside := List.prefix_concat_iff.mp inside
    · rw [same]
      exact noLink target
    · exact settled.noLink inside

/-- A link starts at a settled path. -/
lemma linkStart (settled : tree.Settled here.path) (target : String) :
    tree.Settled (here.linkStart target).path := by
  rw [Spelled.linkStart]
  split
  · exact nil
  · exact settled

/-- A directory is settled. -/
lemma of_directory (proper : tree.IsProper) (isDirectory : tree.entry? path = some .directory) :
    tree.Settled path where
  normal := proper.normal_of_entry? isDirectory
  noLink {above name target} inside linked := by
    obtain ⟨below, rfl⟩ := inside
    cases below.eq_nil_or_concat' with
    | inl last =>
      rw [last, List.append_nil, linked] at isDirectory
      cases isDirectory
    | inr more =>
      obtain ⟨names, last, rfl⟩ := more
      rw [← List.append_assoc] at isDirectory
      cases linked.symm.trans (proper.wellFormed.entry?_above isDirectory)

/-- A settled way is written as it is. -/
lemma canonicalNames_eq {enter : LinksMet → Spelled → List String → Canonical}
    (settled : tree.Settled (here.path ++ names)) :
    tree.canonicalNames enter met here names = ⟨⟨here.path ++ names, here.implied⟩, true, met⟩ := by
  induction names generalizing here with
  | nil => simp [canonicalNames]
  | cons name rest ih =>
    have ne_up : name ≠ ".." := (settled.normal name (by simp)).2
    have onward : here.path ++ name :: rest = (here.down name).path ++ rest :=
      List.append_cons ..
    rw [canonicalNames, if_neg (by simpa using ne_up)]
    dsimp only
    split
    next target found =>
      have inside : here.path ++ [name] <+: here.path ++ name :: rest := ⟨rest, by simp⟩
      exact absurd found (settled.noLink inside)
    next => rw [ih (onward ▸ settled), onward]; rfl

/-- A settled path is its own canonical form. -/
lemma canonicalFrom_eq (settled : tree.Settled path) :
    tree.canonicalFrom Spelled.root path = path := by
  rw [canonicalFrom, canonicalWithin, canonicalNames_eq settled]
  rfl

/-- A settled path resolves to itself, unless the operating system loses its way on it. -/
lemma resolve_eq (settled : tree.Settled path)
    (followed : tree.status path ≠ .error .tooManyLinks) :
    tree.resolve path = .ok path := by
  rw [resolve, resolveFrom, settled.canonicalFrom_eq]
  split
  next lost => exact absurd lost followed
  next => rfl

end Settled

/-- Meeting a link says nothing yet about its place. -/
lemma KnowsSettled.opening {link : Spelled} (knows : tree.KnowsSettled met) :
    tree.KnowsSettled ((link, none) :: met) :=
  Knows.opening knows

/-- The places of links are settled if that of the last one is. -/
lemma KnowsSettled.closing {link place : Spelled} (knows : tree.KnowsSettled met)
    (settled : tree.Settled place.path) : tree.KnowsSettled ((link, some place) :: met) :=
  Knows.closing knows settled

/-- Settled places are all that is known of links, and a way written to its end ends at one. -/
def EndsSettled (tree : FileTree) (written : Canonical) : Prop :=
  written.complete = true → tree.Settled written.place.path ∧ tree.KnowsSettled written.met

/-- A step: names are followed from a settled place, if the targets of links are. -/
lemma canonicalNames_settled {enter : LinksMet → Spelled → List String → Canonical}
    (entered : ∀ {met here names}, (∀ name ∈ names, Path.IsStep name) → tree.Settled here.path →
      tree.KnowsSettled met → tree.EndsSettled (enter met here names))
    (steps : ∀ name ∈ names, Path.IsStep name) (settled : tree.Settled here.path)
    (knows : tree.KnowsSettled met) :
    tree.EndsSettled (tree.canonicalNames enter met here names) := by
  induction names generalizing met here with
  | nil => exact fun _ => ⟨settled, knows⟩
  | cons name rest ih =>
    obtain ⟨step, steps⟩ := List.forall_mem_cons.mp steps
    rw [canonicalNames]
    split
    next => exact ih steps settled.dropLast knows
    next ne_up =>
      dsimp only
      split
      -- A link leads where it is known to lead or its target does; an open one ends the way.
      next target found =>
        split
        next known looked => exact ih steps (knows _ _ looked) knows
        next => exact fun complete => absurd complete Bool.false_ne_true
        next =>
          split
          next complete =>
            obtain ⟨ends, knows⟩ := entered Path.isStep_of_mem_names (settled.linkStart target)
              knows.opening complete
            exact ih steps ends (knows.closing ends)
          next => exact fun complete => absurd complete Bool.false_ne_true
      next noLink => exact ih steps (settled.down step (by simpa using ne_up) noLink) knows

/-- A run: what is written to its end is settled. -/
lemma canonicalWithin_settled {depth : Nat} (steps : ∀ name ∈ names, Path.IsStep name)
    (settled : tree.Settled here.path) (knows : tree.KnowsSettled met) :
    tree.EndsSettled (tree.canonicalWithin depth met here names) := by
  induction depth generalizing met here names with
  | zero => exact fun complete => absurd complete Bool.false_ne_true
  | succ depth enter => exact canonicalNames_settled enter steps settled knows

/-- The way that names lead is written to its end: no link on it leads back to itself. -/
def IsWritten (tree : FileTree) (start : Spelled) (names : List String) : Prop :=
  (tree.canonicalWithin (tree.linkCount * (start.path.length + 2) + 1) [] start names).complete
    = true

/-- Whether the way that names lead is written to its end can be computed. -/
instance (start : Spelled) (names : List String) : Decidable (tree.IsWritten start names) :=
  inferInstanceAs (Decidable (_ = true))

/-- What names resolve to from a settled place resolves to itself. -/
lemma resolve_of_isWritten {start : Spelled} {place : Path}
    (steps : ∀ name ∈ names, Path.IsStep name) (settled : tree.Settled start.path)
    (written : tree.IsWritten start names) (resolved : tree.resolveFrom start names = .ok place) :
    tree.Settled place ∧ tree.resolve place = .ok place := by
  have knows : tree.KnowsSettled [] := Knows.nil
  have ends : tree.Settled place := by
    rw [eq_canonicalFrom resolved]
    exact (canonicalWithin_settled steps settled knows written).1
  refine ⟨ends, ends.resolve_eq fun lost => ?_⟩
  rw [resolveFrom, ← eq_canonicalFrom resolved, lost] at resolved
  cases resolved

end FileTree

namespace Disk

/-- Where the way of a path text starts. -/
def startOf (disk : Disk) (text : String) : FileTree.Spelled :=
  if Path.isAbsolute text then .root else .workingDirectory disk.cwd

/-- A path text is resolved from its start. -/
lemma resolve_eq (disk : Disk) (text : String) :
    disk.resolve text = disk.tree.resolveFrom (disk.startOf text) (Path.names text) := by
  rw [resolve, startOf]
  split <;> rfl

/-- What a path text resolves to resolves to itself if its way is written to its end. -/
theorem resolve_settled {disk : Disk} {text : String} {place : Path}
    (home : disk.tree.Settled disk.cwd)
    (written : disk.tree.IsWritten (disk.startOf text) (Path.names text))
    (resolved : disk.resolve text = .ok place) : disk.resolve (Path.render place) = .ok place := by
  have settled : disk.tree.Settled (disk.startOf text).path := by
    rw [startOf]
    split
    · exact .nil
    · exact home
  rw [resolve_eq] at resolved
  obtain ⟨ends, again⟩ :=
    FileTree.resolve_of_isWritten Path.isStep_of_mem_names settled written resolved
  rw [resolve_render, Path.names_render ends.normal, again]

end Disk

end ExportCover
