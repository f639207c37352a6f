import ExportCover.Proofs.Config.Typed
import ExportCover.Proofs.Path.Names

/-!
# Extensions of file names

Where a file name is cut into a stem and an extension. A known extension fits a name if it is a
proper ending of it; of those that fit there is at most one longest, and the cut is made in front of
it (`find?_byLength_eq_some_iff`). So the stem depends on which extensions are known and not on their
order. The empty extension is the exception: where it is the longest that fits, it takes the whole
name with it (`specifierOf_stem`).
-/

namespace ExportCover.Specifier

/-- A known extension is a proper ending of a name. -/
structure Fits (extensions : List String) (name extension : String) : Prop where
  known : extension ∈ extensions
  ends : extension.toList <:+ name.toList
  proper : extension ≠ name

/-- No known extension that fits the name is longer. -/
structure IsLongest (extensions : List String) (name extension : String) : Prop where
  fits : Fits extensions name extension
  longest : ∀ other, Fits extensions name other →
    other.toList.length ≤ extension.toList.length

/-- A stem is not empty. The longest extension that fits the name stands behind it, and where none
fits it is the whole name. -/
def IsStem (extensions : List String) (name stem : String) : Prop :=
  stem ≠ "" ∧ ((∃ extension, IsLongest extensions name extension ∧ name = stem ++ extension) ∨
    (∀ extension, ¬ Fits extensions name extension) ∧ stem = name)

/-- Whether an extension fits can be computed. -/
instance (extensions : List String) (name extension : String) :
    Decidable (Fits extensions name extension) :=
  decidable_of_iff
    (extension ∈ extensions ∧ extension.toList <:+ name.toList ∧ extension ≠ name)
    ⟨fun ⟨known, ends, proper⟩ => ⟨known, ends, proper⟩,
      fun fits => ⟨fits.known, fits.ends, fits.proper⟩⟩

/-- Whether an extension is the longest that fits can be computed. -/
instance (extensions : List String) (name extension : String) :
    Decidable (IsLongest extensions name extension) :=
  decidable_of_iff (Fits extensions name extension ∧ ∀ other ∈ extensions,
      Fits extensions name other → other.toList.length ≤ extension.toList.length)
    ⟨fun ⟨fits, longest⟩ => ⟨fits, fun other fitting => longest other fitting.known fitting⟩,
      fun longest => ⟨longest.fits, fun other _ fitting => longest.longest other fitting⟩⟩

variable {extensions : List String} {name extension : String}

/-- The test for an extension is the definition of a proper ending. -/
lemma isExtensionOf_iff :
    isExtensionOf name extension ↔ extension.toList <:+ name.toList ∧ extension ≠ name := by
  rw [isExtensionOf, Text.endsWith, Bool.and_eq_true, List.isSuffixOf_iff_suffix,
    decide_eq_true_eq]
  refine and_congr_right fun ends => ⟨?_, fun ne => ?_⟩
  · rintro shorter rfl
    exact lt_irrefl _ shorter
  · refine lt_of_le_of_ne ends.length_le fun same => ne ?_
    rw [← String.toList_inj]
    exact ends.eq_of_length same

/-- An extension fits if it is one of those given and the name ends with it. -/
lemma fits_iff : Fits extensions name extension ↔
    extension ∈ extensions ∧ isExtensionOf name extension := by
  rw [isExtensionOf_iff]
  exact ⟨fun fits => ⟨fits.known, fits.ends, fits.proper⟩,
    fun ⟨known, ends, proper⟩ => ⟨known, ends, proper⟩⟩

/-- Two endings of one name of the same length are the same. -/
lemma IsLongest.unique {other : String} (longest : IsLongest extensions name extension)
    (longest' : IsLongest extensions name other) : extension = other := by
  have same : extension.toList.length = other.toList.length :=
    le_antisymm (longest'.longest _ longest.fits) (longest.longest _ longest'.fits)
  have ends : extension.toList <:+ other.toList :=
    List.suffix_of_suffix_length_le longest.fits.ends longest'.fits.ends same.le
  rw [← String.toList_inj]
  exact ends.eq_of_length same

/-- Ordering extensions by length neither drops nor adds any. -/
lemma mem_byLength : extension ∈ byLength extensions ↔ extension ∈ extensions :=
  (List.mergeSort_perm extensions _).mem_iff

/-- Extensions are tried in the order of their lengths. -/
lemma pairwise_byLength (extensions : List String) :
    (byLength extensions).Pairwise fun a b => b.toList.length ≤ a.toList.length := by
  have sorted : (byLength extensions).Pairwise
      fun a b => decide (b.toList.length ≤ a.toList.length) = true := by
    refine List.pairwise_mergeSort (fun a b c first second => ?_) (fun a b => ?_) extensions
    · rw [decide_eq_true_eq] at *
      exact second.trans first
    · rw [Bool.or_eq_true, decide_eq_true_eq, decide_eq_true_eq]
      exact le_total _ _
  exact sorted.imp of_decide_eq_true

/-- No extension is found exactly if none fits. -/
lemma find?_byLength_eq_none_iff : (byLength extensions).find? (isExtensionOf name) = none ↔
    ∀ extension, ¬ Fits extensions name extension := by
  simp only [List.find?_eq_none, mem_byLength, fits_iff, not_and]

/-- The first extension that fits, longer ones first, is the longest that fits. -/
lemma find?_byLength_eq_some_iff :
    (byLength extensions).find? (isExtensionOf name) = some extension ↔
      IsLongest extensions name extension := by
  have longest_of_found {extension : String}
      (found : (byLength extensions).find? (isExtensionOf name) = some extension) :
      IsLongest extensions name extension := by
    obtain ⟨holds, before, after, split, earlier⟩ := List.find?_eq_some_iff_append.mp found
    have known : extension ∈ byLength extensions := List.mem_of_find?_eq_some found
    refine ⟨fits_iff.mpr ⟨mem_byLength.mp known, holds⟩, fun other fits => ?_⟩
    have sorted := pairwise_byLength extensions
    have listed := mem_byLength.mpr fits.known
    rw [split] at listed
    rw [split, List.pairwise_append, List.pairwise_cons] at sorted
    -- An extension that was tried before did not fit, and those after it are not longer.
    obtain tried | listed := List.mem_append.mp listed
    · have missed := earlier other tried
      rw [(fits_iff.mp fits).2] at missed
      cases missed
    · obtain rfl | later := List.mem_cons.mp listed
      · exact le_rfl
      · exact sorted.2.1.1 other later
  refine ⟨longest_of_found, fun longest => ?_⟩
  cases found : (byLength extensions).find? (isExtensionOf name) with
  | none => exact absurd longest.fits (find?_byLength_eq_none_iff.mp found extension)
  | some other => rw [(longest_of_found found).unique longest]

/-- An ending is dropped from what it was put to. -/
lemma dropEnd_append (s ending : String) : Text.dropEnd (s ++ ending) ending.toList.length = s := by
  rw [Text.dropEnd, String.toList_append, List.length_append, Nat.add_sub_cancel, List.take_left,
    String.ofList_toList]

/-- An ending that is not empty is cut off as it should be. -/
lemma dropEnding_eq_dropEnd {ending : String} (ne : ending ≠ "") (s : String) :
    dropEnding s ending.toList.length = Text.dropEnd s ending.toList.length := by
  rw [dropEnding, if_neg]
  rwa [List.length_eq_zero_iff, String.toList_eq_nil_iff]

/-- The longest extension that fits is cut off, unless it is empty. -/
lemma eq_stem_append (longest : IsLongest extensions name extension) (ne : extension ≠ "") :
    name = stem name extensions ++ extension := by
  have ends : Text.endsWith name extension := List.isSuffixOf_iff_suffix.mpr longest.fits.ends
  obtain ⟨before, split⟩ := Text.endsWith_iff.mp ends
  have cut : stem name extensions = before := by
    simp only [stem, stripFirst, find?_byLength_eq_some_iff.mpr longest]
    rw [dropEnding_eq_dropEnd ne, split, dropEnd_append]
  rw [cut, split]

/-- The empty extension takes the whole name. -/
lemma stem_eq_empty (longest : IsLongest extensions name "") : stem name extensions = "" := by
  simp only [stem, stripFirst, find?_byLength_eq_some_iff.mpr longest]
  rfl

/-- A name that no extension fits is its own stem. -/
lemma stem_eq_self (none : ∀ extension, ¬ Fits extensions name extension) :
    stem name extensions = name := by
  simp only [stem, stripFirst, find?_byLength_eq_none_iff.mpr none]

/-- The name is cut in front of the longest extension that fits, unless that extension is empty. -/
lemma isStem_stem_iff (named : name ≠ "") :
    IsStem extensions name (stem name extensions) ↔ ¬ IsLongest extensions name "" := by
  constructor
  · rintro ⟨ne, _⟩ empty
    exact ne (stem_eq_empty empty)
  intro nonempty
  -- The search finds the longest extension that fits, and only the empty one takes the whole name.
  cases found : (byLength extensions).find? (isExtensionOf name) with
  | none =>
    have none := find?_byLength_eq_none_iff.mp found
    have whole := stem_eq_self none
    exact ⟨by rwa [whole], .inr ⟨none, whole⟩⟩
  | some extension =>
    have longest := find?_byLength_eq_some_iff.mp found
    have ne : extension ≠ "" := by
      rintro rfl
      exact nonempty longest
    have cut := eq_stem_append longest ne
    refine ⟨fun empty => ?_, .inl ⟨extension, longest, cut⟩⟩
    rw [empty, String.empty_append] at cut
    exact longest.fits.proper cut.symm

/-- The stem depends on which extensions are known alone. -/
lemma stem_congr {extensions' : List String}
    (same : ∀ extension, extension ∈ extensions' ↔ extension ∈ extensions) :
    stem name extensions' = stem name extensions := by
  have fits (extension : String) :
      Fits extensions' name extension ↔ Fits extensions name extension := by
    rw [fits_iff, fits_iff, same]
  have longest (extension : String) :
      IsLongest extensions' name extension ↔ IsLongest extensions name extension := by
    constructor
    · intro longest
      exact ⟨(fits _).mp longest.fits,
        fun other fitting => longest.longest other ((fits other).mpr fitting)⟩
    · intro longest
      exact ⟨(fits _).mpr longest.fits,
        fun other fitting => longest.longest other ((fits other).mp fitting)⟩
  have found : (byLength extensions').find? (isExtensionOf name)
      = (byLength extensions).find? (isExtensionOf name) := by
    refine Option.ext fun extension => ?_
    rw [find?_byLength_eq_some_iff, find?_byLength_eq_some_iff, longest]
  rw [stem, stem, stripFirst, stripFirst, found]

/-- The specifier of a file is made with the stem of its name. The name is the stem with the longest
extension that fits behind it, whatever the order in which the extensions are listed. There is one
exception: where the empty extension is the longest that fits, nothing is left for the stem. -/
theorem specifierOf_stem {config : Config} {indexName path : String}
    (hasExtensions : config.get "extensions" = .ok (.texts extensions))
    (hasIndex : config.get "index_name" = .ok (.string indexName))
    (last : Path.baseName (foldSeparators path) = name) (named : name ≠ "") :
    config.specifierOf path = .ok (ofParts (directory (foldSeparators path)) (stem name extensions)
        (stem name extensions == indexName)) ∧
      (IsStem extensions name (stem name extensions) ↔ ¬ IsLongest extensions name "") ∧
      (IsLongest extensions name "" → stem name extensions = "") ∧
      ∀ extensions', (∀ extension, extension ∈ extensions' ↔ extension ∈ extensions) →
        stem name extensions' = stem name extensions := by
  refine ⟨?_, isStem_stem_iff named, stem_eq_empty, fun _ => stem_congr⟩
  rw [Config.specifierOf_eq hasExtensions hasIndex, ofFile, last]

/-- Extensions that end one another, one of them listed twice and one of them empty. -/
def overlapping : List String := [".ts", "", ".test.ts", ".ts"]

/-- The longest of them is cut off, and listing them in another order changes nothing. -/
theorem specifierOf_stem_overlapping :
    Config.get (Config.default.set "extensions" (.texts overlapping)) "extensions"
        = .ok (.texts overlapping) ∧
      Path.baseName (foldSeparators "src\\a.test.ts") = "a.test.ts" ∧
      IsStem overlapping "a.test.ts" (stem "a.test.ts" overlapping) ∧
      stem "a.test.ts" overlapping.reverse = stem "a.test.ts" overlapping := by
  have last : Path.baseName (foldSeparators "src\\a.test.ts") = "a.test.ts" := by decide +kernel
  have hasIndex : Config.get (Config.default.set "extensions" (.texts overlapping)) "index_name"
      = .ok (.string "index") := rfl
  obtain ⟨_, isStem, _, reordered⟩ := specifierOf_stem rfl hasIndex last (by decide)
  refine ⟨rfl, last, isStem.mpr (by decide +kernel), reordered _ fun extension => ?_⟩
  rw [List.mem_reverse]

/-- An empty extension that is known alone takes a name with it that it should leave as it is. -/
theorem stem_vanishes : stem "foo" [""] = "" ∧ ¬ IsStem [""] "foo" (stem "foo" [""]) := by
  have vanished : stem "foo" [""] = "" := stem_eq_empty (by decide)
  exact ⟨vanished, fun isStem => isStem.1 vanished⟩

end ExportCover.Specifier
