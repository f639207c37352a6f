import ExportCover.Proofs.FileTree.Growth
import ExportCover.Proofs.Outcome

/-!
# Canonical texts

Whatever a path text resolves to can be spelled, also if the way to it was cut short at a link that
leads back to itself (`Disk.resolve_normal`). A text is canonical if it resolves to itself, so that
there is one canonical text for a place.
-/

namespace ExportCover

namespace FileTree

variable {tree : FileTree} {here : Spelled} {names : List String} {met : LinksMet}

/-- All places that are known of links have a property. -/
def Knows (holds : Path → Prop) (met : LinksMet) : Prop :=
  ∀ link known, met.lookup link = some (some known) → holds known.path

variable {holds : Path → Prop}

/-- Nothing is known before a link is met. -/
lemma Knows.nil : Knows holds [] := by
  simp [Knows]

/-- A link that has been met is known once its place is. -/
lemma Knows.opening {link : Spelled} (knows : Knows holds met) :
    Knows holds ((link, none) :: met) := by
  intro link' known looked
  rw [List.lookup_cons] at looked
  split at looked
  · cases looked
  · exact knows _ _ looked

/-- What is known of a link has the property if its place has. -/
lemma Knows.closing {link place : Spelled} (knows : Knows holds met) (found : holds place.path) :
    Knows holds ((link, some place) :: met) := by
  intro link' known looked
  rw [List.lookup_cons] at looked
  split at looked
  · cases looked
    exact found
  · exact knows _ _ looked

/-- The place that was reached can be spelled, and so can those that are known of links. -/
structure EndsNormal (written : Canonical) : Prop where
  place : Path.IsNormal written.place.path
  knows : Knows Path.IsNormal written.met

/-- A link starts at a path that can be spelled. -/
lemma normal_linkStart (normal : Path.IsNormal here.path) (target : String) :
    Path.IsNormal (here.linkStart target).path := by
  rw [Spelled.linkStart]
  split
  · exact .nil
  · exact normal

/-- A step: names are followed from a path that can be spelled, if the targets of links are. -/
lemma canonicalNames_normal {enter : LinksMet → Spelled → List String → Canonical}
    (entered : ∀ {met here names}, (∀ name ∈ names, Path.IsStep name) → Path.IsNormal here.path →
      Knows Path.IsNormal met → EndsNormal (enter met here names))
    (steps : ∀ name ∈ names, Path.IsStep name) (normal : Path.IsNormal here.path)
    (knows : Knows Path.IsNormal met) : EndsNormal (tree.canonicalNames enter met here names) := by
  induction names generalizing met here with
  | nil => exact ⟨normal, knows⟩
  | cons name rest ih =>
    obtain ⟨step, steps⟩ := List.forall_mem_cons.mp steps
    rw [canonicalNames]
    split
    next => exact ih steps normal.dropLast knows
    next up =>
      have down : Path.IsNormal (here.down name).path := normal.concat step (by simpa using up)
      dsimp only
      split
      next target found =>
        split
        next known looked => exact ih steps (knows _ _ looked) knows
        next => exact ⟨down.follow steps, knows⟩
        next =>
          have inner : EndsNormal (enter ((here.down name, none) :: met) (here.linkStart target)
              (Path.names target)) :=
            entered Path.isStep_of_mem_names (normal_linkStart normal target) knows.opening
          split
          next => exact ih steps inner.place (inner.knows.closing inner.place)
          next => exact ⟨inner.place.follow steps, inner.knows⟩
      next => exact ih steps down knows

/-- A run: whatever the depth, the end of a way can be spelled. -/
lemma canonicalWithin_normal {depth : Nat} (steps : ∀ name ∈ names, Path.IsStep name)
    (normal : Path.IsNormal here.path) (knows : Knows Path.IsNormal met) :
    EndsNormal (tree.canonicalWithin depth met here names) := by
  induction depth generalizing met here names with
  | zero => exact ⟨normal.follow steps, knows⟩
  | succ depth enter => exact canonicalNames_normal enter steps normal knows

end FileTree

namespace Disk

variable {disk : Disk} {text : String} {place : Path}

/-- What a path text from the root resolves to can be spelled. -/
lemma resolve_normal (rooted : Path.isAbsolute text) (resolved : disk.resolve text = .ok place) :
    Path.IsNormal place := by
  rw [resolve, if_pos rooted, FileTree.resolve] at resolved
  rw [FileTree.eq_canonicalFrom resolved]
  exact (FileTree.canonicalWithin_normal Path.isStep_of_mem_names Path.IsNormal.nil .nil).place

/-- A path text that resolves to itself. -/
def IsCanonical (disk : Disk) (text : String) : Prop :=
  Path.render <$> disk.resolve text = .ok text

/-- Whether a path text is canonical can be computed. -/
instance (disk : Disk) (text : String) : Decidable (disk.IsCanonical text) :=
  inferInstanceAs (Decidable (_ = _))

/-- A canonical text spells the place that it resolves to. -/
lemma IsCanonical.exists_place (canonical : disk.IsCanonical text) :
    ∃ place, disk.resolve text = .ok place ∧ text = Path.render place ∧ Path.IsNormal place := by
  obtain ⟨place, resolved, same⟩ := Outcome.map_eq_ok.mp canonical
  have rooted : Path.isAbsolute text := same ▸ Path.isAbsolute_render place
  exact ⟨place, resolved, same.symm, resolve_normal rooted resolved⟩

end Disk

end ExportCover
