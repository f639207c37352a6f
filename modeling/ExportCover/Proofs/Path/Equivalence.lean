import ExportCover.Proofs.Path.Comparison

/-!
# How far being the same module is an equivalence

Every specifier is taken for its own module, and no comparison depends on which specifier comes
first. Comparisons do not chain: each of them forgives one separator at the end, so that two in a
row may forgive two. This is the only way in which a chain breaks (`sameModule_chain`), and it needs
two separators side by side.
-/

namespace ExportCover.Specifier

/-- The text by which a specifier is compared: folded, without an index name at its end. -/
def normal (indexName specifier : String) : String :=
  stripIndex indexName (foldSeparators specifier)

/-- No two separators stand side by side in the folded text. -/
def IsSingle (specifier : String) : Prop :=
  ∀ before after, foldSeparators specifier ≠ before ++ "//" ++ after

/-- Each of three texts is the one before it with a separator put behind. -/
def Lengthens (a b c : String) : Prop :=
  ∃ x, a = x ∧ b = x ++ "/" ∧ c = x ++ "//"

variable {indexName a b c : String}

section Texts

/-- Every text is the same as itself up to a slash. -/
lemma sameUpToSlash_refl (a : String) : sameUpToSlash a a :=
  sameUpToSlash_iff.mpr (.inl rfl)

/-- Being the same up to a slash goes both ways. -/
lemma sameUpToSlash_symm (same : sameUpToSlash a b) : sameUpToSlash b a := by
  obtain rfl | longer | shorter := sameUpToSlash_iff.mp same
  · exact sameUpToSlash_refl a
  · exact sameUpToSlash_iff.mpr (.inr (.inr longer.symm))
  · exact sameUpToSlash_iff.mpr (.inr (.inl shorter.symm))

/-- Two slashes can be put at the end one by one. -/
lemma slash_append_slash (x : String) : x ++ "/" ++ "/" = x ++ "//" :=
  String.append_assoc

/-- Two separators are not forgiven. -/
lemma Lengthens.apart (lengthens : Lengthens a b c) : ¬ sameUpToSlash a c := by
  obtain ⟨x, rfl, -, rfl⟩ := lengthens
  intro same
  have lengths : a.length = (a ++ "//").length ∨ a.length = (a ++ "//" ++ "/").length ∨
      (a ++ "/").length = (a ++ "//").length :=
    (sameUpToSlash_iff.mp same).imp (congrArg _) (Or.imp (congrArg _) (congrArg _))
  have one : "/".length = 1 := rfl
  have two : "//".length = 2 := rfl
  simp only [String.length_append, one, two] at lengths
  omega

/-- Two comparisons in a row make one unless the texts grow or shrink twice. -/
lemma sameUpToSlash_trans_or (first : sameUpToSlash a b) (second : sameUpToSlash b c) :
    sameUpToSlash a c ∨ Lengthens a b c ∨ Lengthens c b a := by
  obtain rfl | rfl | rfl := sameUpToSlash_iff.mp first
  · exact .inl second
  · obtain rfl | rfl | same := sameUpToSlash_iff.mp second
    · exact .inl first
    · exact .inr (.inr ⟨c, rfl, rfl, slash_append_slash c⟩)
    · exact .inl (sameUpToSlash_iff.mpr (.inl same))
  · obtain rfl | same | rfl := sameUpToSlash_iff.mp second
    · exact .inl first
    · rw [String.append_left_inj] at same
      exact .inl (sameUpToSlash_iff.mpr (.inl same))
    · exact .inr (.inl ⟨a, rfl, rfl, slash_append_slash a⟩)

end Texts

/-- A specifier starts with the text by which it is compared. -/
lemma exists_foldSeparators_eq (indexName specifier : String) :
    ∃ rest, foldSeparators specifier = normal indexName specifier ++ rest := by
  rw [normal, stripIndex]
  split
  next =>
    rw [dropEnding]
    split
    next => exact ⟨foldSeparators specifier, (String.empty_append).symm⟩
    next =>
      refine ⟨String.ofList ((foldSeparators specifier).toList.drop
        ((foldSeparators specifier).toList.length - indexName.toList.length)), ?_⟩
      rw [Text.dropEnd, ← String.ofList_append, List.take_append_drop, String.ofList_toList]
  next => exact ⟨"", (String.append_empty).symm⟩

/-- Texts that grow twice end in two separators, which the specifier has then too. -/
lemma Lengthens.not_isSingle {x y specifier : String}
    (lengthens : Lengthens x y (normal indexName specifier)) : ¬ IsSingle specifier := by
  obtain ⟨_, -, -, ends⟩ := lengthens
  obtain ⟨rest, whole⟩ := exists_foldSeparators_eq indexName specifier
  intro single
  exact single _ rest (ends ▸ whole)

/-- Being taken for the same module is reflexive and symmetric under every index name. Of three
specifiers in a row the outer ones are taken for different modules if and only if the texts by which
the three are compared are `x`, `x/` and `x//` for some `x`, in this order or in the other one. So
it is an equivalence among the specifiers without two separators side by side. -/
theorem sameModule_chain (indexName : String) :
    (∀ a, sameModule indexName a a) ∧
    (∀ a b, sameModule indexName a b → sameModule indexName b a) ∧
    (∀ a b c, sameModule indexName a b → sameModule indexName b c →
      (sameModule indexName a c = false ↔
        Lengthens (normal indexName a) (normal indexName b) (normal indexName c) ∨
          Lengthens (normal indexName c) (normal indexName b) (normal indexName a))) ∧
    Equivalence fun a b : { s : String // IsSingle s } => (sameModule indexName a b : Prop) := by
  have refl (a : String) : sameModule indexName a a := sameUpToSlash_refl _
  have symm (a b : String) : sameModule indexName a b → sameModule indexName b a :=
    sameUpToSlash_symm
  refine ⟨refl, symm, fun a b c first second => ?_, ?_⟩
  · rw [← Bool.not_eq_true]
    constructor
    · exact (sameUpToSlash_trans_or first second).resolve_left
    · rintro (lengthens | shrinks)
      · exact lengthens.apart
      · exact fun same => shrinks.apart (sameUpToSlash_symm same)
  · refine ⟨fun a => refl a, fun {a b} => symm a b, fun {a b c} first second => ?_⟩
    obtain same | lengthens | shrinks := sameUpToSlash_trans_or first second
    · exact same
    · exact absurd c.2 lengthens.not_isSingle
    · exact absurd a.2 shrinks.not_isSingle

/-- A module, its directory and its directory with a separator too many. -/
theorem sameModule_chain_broken : sameModule "index" "./a" "./a/index" ∧
    sameModule "index" "./a/index" ".\\a\\\\index" ∧
    sameModule "index" "./a" ".\\a\\\\index" = false := by
  have first : sameModule "index" "./a" "./a/index" := by decide +kernel
  have second : sameModule "index" "./a/index" ".\\a\\\\index" := by decide +kernel
  refine ⟨first, second, ((sameModule_chain "index").2.2.1 _ _ _ first second).mpr (.inl ?_)⟩
  exact ⟨"./a", by decide +kernel⟩

end ExportCover.Specifier
