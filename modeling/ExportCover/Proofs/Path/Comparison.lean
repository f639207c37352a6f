import Mathlib.Data.List.DropRight
import ExportCover.Proofs.Config.Table
import ExportCover.Proofs.Config.Typed
import ExportCover.Proofs.Path.Spelling

/-!
# What the comparison of specifiers identifies

Two specifiers that are taken for the same module agree in what the comparison means to look at.
Either both of them are relative or neither is (`isRelative_congr`), and what is left of them without
an index name and without separators at the end is the same text. The second statement needs an
index name that is not empty: without one, all texts that end with a separator are taken for the
same module (`identified_iff`).
-/

namespace ExportCover.Specifier

/-- The text without the separators at its end. -/
def trimSlashes (s : String) : String :=
  String.ofList (s.toList.rdropWhile (· == '/'))

/-- The text without one index name at its end; the separator before it stays, and an index name of
no characters is nothing to remove. -/
def withoutIndex (indexName s : String) : String :=
  if Text.endsWith s ("/" ++ indexName) then Text.dropEnd s indexName.toList.length else s

/-- What a specifier is compared by: its folded text without an index name and without separators at
the end. -/
def core (indexName specifier : String) : String :=
  trimSlashes (withoutIndex indexName (foldSeparators specifier))

/-- Under an empty index name nothing is left of the specifier. -/
def Vanishes (specifier : String) : Prop :=
  foldSeparators specifier = "" ∨ Text.endsWith (foldSeparators specifier) "/"

/-- Two texts are the same up to a slash if they are, or one has a slash more. -/
lemma sameUpToSlash_iff {a b : String} :
    sameUpToSlash a b ↔ a = b ∨ a = b ++ "/" ∨ a ++ "/" = b := by
  simp [sameUpToSlash, or_assoc]

section Relative

/-- The first name of a text is `.` or `..`. -/
def Opens (text : List Char) : Prop :=
  ['.', '/'] <+: text ++ ['/'] ∨ ['.', '.', '/'] <+: text ++ ['/']

/-- A specifier is relative if it opens as such with its separators folded. -/
lemma isRelative_iff {specifier : String} :
    isRelative specifier ↔ Opens (foldSeparators specifier).toList := by
  have whole (s name : String) : s = name ↔ name.toList ++ ['/'] = s.toList ++ ['/'] := by
    rw [List.append_left_inj, String.toList_inj, eq_comm]
  have here (s : String) : s = "." ↔ ['.', '/'] = s.toList ++ ['/'] := whole s "."
  have above (s : String) : s = ".." ↔ ['.', '.', '/'] = s.toList ++ ['/'] := whole s ".."
  simp only [isRelative, Opens, Text.startsWith, Bool.or_eq_true, beq_iff_eq, here, above,
    List.isPrefixOf_iff_prefix, List.prefix_concat_iff]
  rw [or_assoc, or_or_or_comm]
  rfl

/-- What stands behind a separator does not matter for a name at the start. -/
lemma name_prefix_iff {name text rest : List Char} (free : '/' ∉ name) :
    name ++ ['/'] <+: text ++ '/' :: rest ↔ name ++ ['/'] <+: text ++ ['/'] := by
  have upTo : text ++ ['/'] <+: text ++ '/' :: rest := by
    rw [List.prefix_append_right_inj, List.cons_prefix_cons]
    exact ⟨rfl, List.nil_prefix⟩
  refine ⟨fun starts => ?_, fun starts => starts.trans upTo⟩
  obtain short | long := le_or_gt name.length text.length
  · refine List.prefix_of_prefix_length_le starts upTo ?_
    simpa using short
  · -- The name would go beyond the separator.
    have inside : text ++ ['/'] <+: name := by
      refine List.prefix_of_prefix_length_le upTo ((List.prefix_append _ _).trans starts) ?_
      rw [List.length_append]
      exact long
    exact absurd (inside.subset (by simp)) free

/-- What follows a separator has no part in how a text opens. -/
lemma opens_append_slash {text rest : List Char} : Opens (text ++ '/' :: rest) ↔ Opens text := by
  have behind (name : List Char) (free : '/' ∉ name) :
      name ++ ['/'] <+: text ++ '/' :: rest ++ ['/'] ↔ name ++ ['/'] <+: text ++ ['/'] := by
    rw [List.append_assoc, List.cons_append]
    exact name_prefix_iff free
  exact or_congr (behind ['.'] (by decide)) (behind ['.', '.'] (by decide))

/-- Whether a text opens with such a name shows at its start. -/
lemma opens_of_prefix {part text : List Char} (starts : part <+: text) (ne : part ≠ [])
    (opens : Opens text) : Opens part := by
  obtain ⟨rest, rfl⟩ := starts
  simp only [Opens, List.append_assoc] at opens
  match part with
  | [] => exact absurd rfl ne
  | [first] =>
    -- One dot is all that is needed.
    have dot : '.' = first := by
      obtain opens | opens := opens <;> exact (List.cons_prefix_cons.mp opens).1
    subst dot
    exact .inl ⟨[], rfl⟩
  | [first, second] =>
    obtain opens | opens := opens <;>
      simp only [List.cons_append, List.cons_prefix_cons] at opens <;>
      obtain ⟨rfl, rfl, _⟩ := opens
    · exact .inl ⟨['/'], rfl⟩
    · exact .inr ⟨[], rfl⟩
  | first :: second :: third :: tail =>
    obtain opens | opens := opens <;>
      simp only [List.cons_append, List.cons_prefix_cons] at opens
    · obtain ⟨rfl, rfl, _⟩ := opens
      exact .inl ⟨third :: tail ++ ['/'], rfl⟩
    · obtain ⟨rfl, rfl, rfl, _⟩ := opens
      exact .inr ⟨tail ++ ['/'], rfl⟩

/-- What a relative specifier starts with is relative too. -/
lemma isRelative_of_prefix {part specifier : String}
    (starts : part.toList <+: specifier.toList) (ne : part ≠ "") (relative : isRelative specifier) :
    isRelative part := by
  rw [isRelative_iff, foldSeparators, String.toList_ofList] at relative ⊢
  refine opens_of_prefix (starts.map _) ?_ relative
  rwa [Ne, List.map_eq_nil_iff, String.toList_eq_nil_iff]

/-- A relative specifier does not start with a separator. -/
lemma not_isRelative_backslash {specifier : String} {rest : List Char}
    (starts : specifier.toList = '\\' :: rest) : ¬ isRelative specifier := by
  rw [isRelative_iff, foldSeparators, String.toList_ofList, starts]
  rintro (opens | opens) <;> exact absurd (List.cons_prefix_cons.mp opens).1 (by decide)

/-- A module is written as a relative specifier. -/
lemma isRelative_ofParts (directory stem : String) (isIndex : Bool) :
    isRelative (ofParts directory stem isIndex) := by
  simp only [ofParts]
  generalize (if isIndex then directory else directory ++ stem) = spelled
  split
  next relative => exact relative
  next =>
    have folded : (foldSeparators ("./" ++ spelled)).toList
        = '.' :: '/' :: (foldSeparators spelled).toList := by
      simp [foldSeparators]
    rw [isRelative_iff, folded]
    exact .inl ⟨(foldSeparators spelled).toList ++ ['/'], rfl⟩

variable {indexName a b : String}

/-- Texts that are the same up to a slash open alike. -/
lemma opens_congr (same : sameUpToSlash a b) : Opens a.toList ↔ Opens b.toList := by
  have slashed (s : String) : Opens (s ++ "/").toList ↔ Opens s.toList := by
    rw [String.toList_append]
    exact opens_append_slash
  obtain rfl | rfl | rfl := sameUpToSlash_iff.mp same
  · exact Iff.rfl
  · exact slashed b
  · exact (slashed a).symm

/-- Removing the index name does not change how a specifier opens. -/
lemma opens_stripIndex (index_ne : indexName ≠ "") :
    Opens (stripIndex indexName a).toList ↔ Opens a.toList := by
  obtain ⟨before, text, stripped⟩ | ⟨same, _⟩ := (stripIndex_eq_iff index_ne).mp (rfl :
    stripIndex indexName a = stripIndex indexName a)
  · rw [stripped, text, String.append_assoc, String.toList_append, String.toList_append,
      String.toList_append]
    exact opens_append_slash.trans opens_append_slash.symm
  · rw [← same]

/-- Of two specifiers for the same module both are relative or neither is. -/
lemma isRelative_congr (index_ne : indexName ≠ "") (same : sameModule indexName a b) :
    isRelative a ↔ isRelative b := by
  rw [isRelative_iff, isRelative_iff, ← opens_stripIndex index_ne,
    ← opens_stripIndex (a := foldSeparators b) index_ne]
  exact opens_congr same

end Relative

variable {indexName a b : String}

/-- A slash at the end is trimmed. -/
lemma trimSlashes_slash (s : String) : trimSlashes (s ++ "/") = trimSlashes s := by
  have slash : "/".toList = ['/'] := rfl
  rw [trimSlashes, String.toList_append, slash, List.rdropWhile_concat_pos _ _ _ rfl, trimSlashes]

/-- Texts that are the same up to a slash are the same once slashes are trimmed. -/
lemma trimSlashes_congr (same : sameUpToSlash a b) : trimSlashes a = trimSlashes b := by
  obtain rfl | rfl | rfl := sameUpToSlash_iff.mp same
  · rfl
  · exact trimSlashes_slash b
  · exact (trimSlashes_slash a).symm

/-- An index name that is not empty is removed as it should be. -/
lemma stripIndex_eq_withoutIndex (index_ne : indexName ≠ "") (s : String) :
    stripIndex indexName s = withoutIndex indexName s := by
  rw [stripIndex, withoutIndex, dropEnding_eq_dropEnd index_ne]

/-- An empty index name takes a text that ends with a separator as a whole. -/
lemma stripIndex_empty (s : String) :
    stripIndex "" s = if Text.endsWith s "/" then "" else s :=
  rfl

/-- With an empty index name removed, no slash is left at the end. -/
lemma not_endsWith_stripIndex_empty (s : String) : ¬ Text.endsWith (stripIndex "" s) "/" := by
  rw [stripIndex_empty]
  split
  next => decide
  next other => exact other

/-- With an empty index name removed, nothing is left of a text that ends with a separator. -/
lemma stripIndex_empty_eq_empty_iff :
    stripIndex "" (foldSeparators a) = "" ↔ Vanishes a := by
  rw [stripIndex_empty, Vanishes]
  split
  next ends => simp [ends]
  next other => simp [other]

/-- Under an empty index name two specifiers are taken for the same module if they are the same
text or if nothing is left of either. -/
lemma sameModule_empty_iff :
    sameModule "" a b ↔ foldSeparators a = foldSeparators b ∨ Vanishes a ∧ Vanishes b := by
  have unslashed (x y : String) : stripIndex "" x ≠ y ++ "/" := by
    intro e
    exact not_endsWith_stripIndex_empty x (Text.endsWith_iff.mpr ⟨y, e⟩)
  have forms : sameModule "" a b ↔
      stripIndex "" (foldSeparators a) = stripIndex "" (foldSeparators b) := by
    rw [sameModule, sameUpToSlash_iff]
    have left := unslashed (foldSeparators a) (stripIndex "" (foldSeparators b))
    have right := unslashed (foldSeparators b) (stripIndex "" (foldSeparators a))
    simp [left, Ne.symm right]
  rw [forms]
  constructor
  · intro same
    by_cases vanished : stripIndex "" (foldSeparators a) = ""
    · exact .inr ⟨stripIndex_empty_eq_empty_iff.mp vanished,
        stripIndex_empty_eq_empty_iff.mp (same ▸ vanished)⟩
    · -- What is left of a specifier is either nothing or all of it.
      have whole {s : String} (left : stripIndex "" s ≠ "") : stripIndex "" s = s := by
        rw [stripIndex_empty] at left ⊢
        split at left
        next => exact absurd rfl left
        next other => rw [if_neg other]
      have vanished' : stripIndex "" (foldSeparators b) ≠ "" := same ▸ vanished
      rw [whole vanished, whole vanished'] at same
      exact .inl same
  · rintro (same | ⟨vanishes, vanishes'⟩)
    · rw [same]
    · rw [stripIndex_empty_eq_empty_iff.mpr vanishes, stripIndex_empty_eq_empty_iff.mpr vanishes']

/-- Under an index name that is not empty, specifiers for the same module have the same core. -/
lemma core_congr (index_ne : indexName ≠ "") (same : sameModule indexName a b) :
    core indexName a = core indexName b := by
  rw [sameModule, stripIndex_eq_withoutIndex index_ne, stripIndex_eq_withoutIndex index_ne] at same
  exact trimSlashes_congr same

/-- Every text can be set as the index name of a configuration, and specifiers can be compared under
it. Two specifiers with different cores are taken for the same module exactly if the index name is
empty and nothing is left of either of them. -/
theorem identified_iff (config : Config) (indexName a b : String) :
    ∃ edited index same, config.apply (.set "index_name" indexName) = .ok edited ∧
      edited.get "index_name" = .ok index ∧ Config.sameModule index a b = .ok same ∧
      (same = true ∧ core indexName a ≠ core indexName b ↔
        indexName = "" ∧ Vanishes a ∧ Vanishes b ∧ core "" a ≠ core "" b) := by
  refine ⟨config.set "index_name" (.string indexName), .string indexName,
    sameModule indexName a b, rfl, ?_, Config.sameModule_eq indexName a b, ?_⟩
  · exact Config.get_eq_ok (by rw [Config.get?_set, if_pos rfl])
  constructor
  · rintro ⟨same, apart⟩
    by_cases index_ne : indexName = ""
    · subst index_ne
      obtain equal | ⟨vanishes, vanishes'⟩ := sameModule_empty_iff.mp same
      · exact absurd (by rw [core, core, equal]) apart
      · exact ⟨rfl, vanishes, vanishes', apart⟩
    · exact absurd (core_congr index_ne same) apart
  · rintro ⟨rfl, vanishes, vanishes', apart⟩
    exact ⟨sameModule_empty_iff.mpr (.inr ⟨vanishes, vanishes'⟩), apart⟩

/-- Two directories that have nothing to do with each other are taken for the same module. -/
theorem identified_apart : sameModule "" "foo/" "bar/" ∧ core "" "foo/" ≠ core "" "bar/" := by
  decide +kernel

end ExportCover.Specifier
