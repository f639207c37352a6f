import ExportCover.Proofs.Path.Denotation
import ExportCover.Proofs.Path.Extensions

/-!
# The accepted spellings of a module

Which specifiers are taken for a module, among all texts. The specifier that is written for a
module is a base, and a separator behind it if the module is the index of its directory. A text
spells the module exactly if it is one of a few texts made of the base, separators and the index
name (`sameModule_iff_accepted`). A module that is no index has three of them and an index module
has five; one of the five is lost if the directory itself has the index name.
-/

namespace ExportCover.Specifier

open ExportCover.Path

/-- The text without one separator at its end. -/
def withoutSlash (s : String) : String :=
  if Text.endsWith s "/" then Text.dropEnd s 1 else s

/-- The accepted spellings of a module with a given base. A base that ends with the index name is
taken for the index of the directory above it, so it does not spell an index module itself. -/
def IsSpelling (indexName base : String) : Bool → String → Prop
  | false, text => text ∈ [base, base ++ "/", base ++ "/" ++ indexName]
  | true, text =>
    text ∈ [base ++ "/", base ++ "/" ++ indexName, base ++ "//", base ++ "//" ++ indexName] ∨
      text = base ∧ ¬ Text.endsWith base ("/" ++ indexName)

/-- A specifier in a test file is one of the accepted spellings of a module file, where `target` is
how the module is written from the test file. -/
def Accepted (extensions : List String) (indexName target moduleFile specifier : String) : Prop :=
  IsSpelling indexName (withoutSlash target) (stem (baseName moduleFile) extensions == indexName)
    (foldSeparators specifier)

/-- A slash at the end is taken off. -/
lemma withoutSlash_slash (base : String) : withoutSlash (base ++ "/") = base := by
  rw [withoutSlash, if_pos (Text.endsWith_iff.mpr ⟨base, rfl⟩)]
  exact dropEnd_append base "/"

/-- Behind a slash at the end stands no name. -/
lemma baseName_slash (before : String) : baseName (before ++ "/") = "" := by
  have last : baseName (before ++ "/" ++ "") = "" := baseName_append (.some before) (by decide)
  rwa [String.append_empty] at last

/-- What ends with a name keeps its end. -/
lemma withoutSlash_eq_self {s : String} (ne : baseName s ≠ "") : withoutSlash s = s := by
  rw [withoutSlash, if_neg]
  intro ends
  obtain ⟨before, rfl⟩ := Text.endsWith_iff.mp ends
  exact ne (baseName_slash before)

section

variable {indexName : String} (index_ne : indexName ≠ "") (index_free : '/' ∉ indexName.toList)
include index_ne

/-- Stripping either removes the index name behind a separator or nothing at all. -/
lemma stripIndex_eq_iff {text stripped : String} :
    stripIndex indexName text = stripped ↔
      (∃ before, text = before ++ "/" ++ indexName ∧ stripped = before ++ "/") ∨
        text = stripped ∧ ¬ Text.endsWith text ("/" ++ indexName) := by
  rw [stripIndex]
  split
  next ends =>
    obtain ⟨before, rfl⟩ := Text.endsWith_iff.mp ends
    rw [← String.append_assoc, dropEnding_eq_dropEnd index_ne, dropEnd_append]
    constructor
    · rintro rfl
      exact .inl ⟨before, rfl, rfl⟩
    · rintro (⟨before', e, rfl⟩ | ⟨_, other⟩)
      · exact (String.append_left_inj _).mp e
      · rw [String.append_assoc] at other
        exact absurd ends other
  next other =>
    constructor
    · exact fun e => .inr ⟨e, other⟩
    · rintro (⟨before, rfl, rfl⟩ | ⟨e, _⟩)
      · exact absurd (Text.endsWith_iff.mpr ⟨before, String.append_assoc⟩) other
      · exact e

/-- What is left of a text ends with a separator if the text did, or if an index name followed. -/
lemma stripIndex_eq_slash_iff {text base : String} (index_free : '/' ∉ indexName.toList) :
    stripIndex indexName text = base ++ "/" ↔
      text = base ++ "/" ∨ text = base ++ "/" ++ indexName := by
  rw [stripIndex_eq_iff index_ne]
  constructor
  · rintro (⟨before, rfl, e⟩ | ⟨rfl, _⟩)
    · rw [e]
      exact .inr rfl
    · exact .inl rfl
  · rintro (rfl | rfl)
    · refine .inr ⟨rfl, not_endsWith_index index_free ?_⟩
      rw [baseName_slash]
      exact index_ne.symm
    · exact .inl ⟨base, rfl, rfl⟩

/-- What is left of a text ends without a separator only if nothing was removed. -/
lemma stripIndex_eq_bare_iff {text base : String} (bare : baseName base ≠ "") :
    stripIndex indexName text = base ↔
      text = base ∧ ¬ Text.endsWith base ("/" ++ indexName) := by
  rw [stripIndex_eq_iff index_ne]
  constructor
  · rintro (⟨before, _, rfl⟩ | ⟨rfl, other⟩)
    · exact absurd (baseName_slash before) bare
    · exact ⟨rfl, other⟩
  · rintro ⟨rfl, other⟩
    exact .inr ⟨rfl, other⟩

include index_free

/-- The spellings of a module that is no index. -/
lemma sameUpToSlash_bare_iff {text base : String} (bare : baseName base ≠ "")
    (other : baseName base ≠ indexName) :
    sameUpToSlash (stripIndex indexName text) base ↔ IsSpelling indexName base false text := by
  have noSlash : stripIndex indexName text ++ "/" ≠ base := by
    rintro rfl
    exact bare (baseName_slash _)
  have whole : stripIndex indexName text = base ↔ text = base := by
    rw [stripIndex_eq_bare_iff index_ne bare]
    exact and_iff_left (not_endsWith_index index_free other)
  simp only [sameUpToSlash, IsSpelling, Bool.or_eq_true, beq_iff_eq, List.mem_cons,
    List.not_mem_nil, or_false, whole, noSlash, stripIndex_eq_slash_iff index_ne index_free]

/-- The spellings of an index module. -/
lemma sameUpToSlash_slash_iff {text base : String} (bare : baseName base ≠ "") :
    sameUpToSlash (stripIndex indexName text) (base ++ "/") ↔
      IsSpelling indexName base true text := by
  have doubled : base ++ "/" ++ "/" = base ++ "//" := String.append_assoc
  have twice : stripIndex indexName text = base ++ "//" ↔
      text = base ++ "//" ∨ text = base ++ "//" ++ indexName := by
    rw [← doubled]
    exact stripIndex_eq_slash_iff index_ne index_free
  simp only [sameUpToSlash, IsSpelling, Bool.or_eq_true, beq_iff_eq, List.mem_cons,
    List.not_mem_nil, or_false, doubled, twice, String.append_left_inj,
    stripIndex_eq_slash_iff index_ne index_free, stripIndex_eq_bare_iff index_ne bare, or_assoc]

end

/-- A file name keeps at least one character before an extension that is not empty. -/
lemma stem_ne_empty {name : String} {extensions : List String} (ne : name ≠ "")
    (nonempty : ∀ extension ∈ extensions, extension ≠ "") : stem name extensions ≠ "" := by
  have isStem : IsStem extensions name (stem name extensions) := by
    refine (isStem_stem_iff ne).mpr fun empty => ?_
    exact nonempty "" empty.fits.known rfl
  exact isStem.1

/-- Names joined to the text of a directory. -/
def joinedDirectory (init : List String) : String :=
  if init.isEmpty then "" else "/".intercalate init ++ "/"

/-- Joined names are the last one behind the directories. -/
lemma intercalate_eq_joinedDirectory (init : List String) (last : String) :
    "/".intercalate (init ++ [last]) = joinedDirectory init ++ last := by
  cases init with
  | nil => simp [joinedDirectory]
  | cons first rest =>
    rw [String.intercalate_append_of_ne_nil (List.cons_ne_nil _ _) (List.cons_ne_nil _ _),
      String.intercalate_singleton]
    rfl

/-- The specifier of a file is made of the names above it and of its stem. -/
lemma ofFile_eq_ofParts (extensions : List String) (indexName : String) {init : List String}
    {last : String} (steps : ∀ name ∈ init, IsStep name) (free : '/' ∉ last.toList)
    (plain : ∀ name ∈ init ++ [last], '\\' ∉ name.toList) :
    ofFile ("/".intercalate (init ++ [last])) extensions indexName
      = ofParts (joinedDirectory init) (stem last extensions)
          (stem last extensions == indexName) := by
  obtain ⟨part, dir, ne, _, e⟩ := intercalate_concat steps last
  have part_eq : joinedDirectory init = part := by
    rw [intercalate_eq_joinedDirectory] at e
    exact (String.append_left_inj last).mp e
  have plain' := notMem_intercalate (by decide) plain
  rw [e] at plain' ⊢
  rw [part_eq]
  exact ofFile_append dir ne free plain' extensions indexName

/-- An index module is written as a directory, with one separator at the end. -/
lemma ofParts_index {init : List String} (steps : ∀ name ∈ init, IsStep name) (last : String) :
    ∃ base, ofParts (joinedDirectory init) last true = base ++ "/" ∧ baseName base ≠ "" := by
  have e : ofParts (joinedDirectory init) last true = if isRelative (joinedDirectory init) then
      joinedDirectory init else "./" ++ joinedDirectory init := rfl
  rw [e]
  obtain rfl | ⟨above, name, rfl⟩ := List.eq_nil_or_concat' init
  · have here : baseName ("" ++ ".") = "." := baseName_append .none (by decide)
    refine ⟨".", by decide, ?_⟩
    rw [String.empty_append] at here
    rw [here]
    decide
  · -- The directory is joined names, the last of which is not empty.
    have step := steps name (by simp)
    obtain ⟨directory, dir, _, _, joined⟩ := intercalate_concat
      (fun name mem => steps name (List.mem_append_left _ mem)) name
    have slashed : joinedDirectory (above ++ [name]) = directory ++ name ++ "/" := by
      rw [← joined]
      simp [joinedDirectory]
    rw [slashed]
    split
    · refine ⟨directory ++ name, rfl, ?_⟩
      rw [baseName_append dir step.no_slash]
      exact step.ne_empty
    · have below : IsDirectory ("./" ++ directory) := dir.below "."
      refine ⟨"./" ++ directory ++ name, by simp only [String.append_assoc], ?_⟩
      rw [baseName_append below step.no_slash]
      exact step.ne_empty

/-- A module that is no index is written with its stem at the end. -/
lemma baseName_ofParts {init : List String} (steps : ∀ name ∈ init, IsStep name) {last : String}
    (free : '/' ∉ last.toList) : baseName (ofParts (joinedDirectory init) last false) = last := by
  obtain ⟨part, dir, _, _, e⟩ := intercalate_concat steps last
  rw [intercalate_eq_joinedDirectory, String.append_left_inj] at e
  obtain ⟨directory, dir', _, written⟩ := ofParts_eq dir last false
  rw [e, written]
  exact baseName_append dir' free

/-- A module is written, from a directory that it is not above, as the way to its directory and its
stem. -/
lemma ofFile_relative_eq_ofParts (extensions : List String) (indexName : String)
    {start init : Path} {last : String} (normal : IsNormal (init ++ [last]))
    (plain : ∀ name ∈ init ++ [last], '\\' ∉ name.toList) (apart : ¬ init ++ [last] <+: start) :
    ofFile (renderNames (relative (init ++ [last]) start)) extensions indexName
      = ofParts (joinedDirectory (relative init start)) (stem last extensions)
          (stem last extensions == indexName) := by
  have plain_way : ∀ name ∈ relative init start ++ [last], '\\' ∉ name.toList := by
    rw [← relative_concat apart]
    exact notMem_of_mem_relative (by decide) plain
  rw [relative_concat apart, renderNames_concat]
  exact ofFile_eq_ofParts extensions indexName (isStep_of_mem_relative normal.of_append)
    (normal last (by simp)).1.no_slash plain_way

/-- A specifier spells a module exactly if it is one of its accepted spellings. The module is
written from a directory that it is not above. -/
theorem sameModule_iff_accepted {extensions : List String} {indexName : String} {place : Path}
    (start : Path) (index_ne : indexName ≠ "") (index_free : '/' ∉ indexName.toList)
    (nonempty : ∀ extension ∈ extensions, extension ≠ "") (normal : IsNormal place)
    (plain : ∀ name ∈ place, '\\' ∉ name.toList) (apart : ¬ place <+: start)
    (specifier : String) :
    sameModule indexName specifier
        (ofFile (renderNames (relative place start)) extensions indexName) ↔
      Accepted extensions indexName
        (ofFile (renderNames (relative place start)) extensions indexName) (render place)
        specifier := by
  obtain rfl | ⟨init, last, rfl⟩ := List.eq_nil_or_concat' place
  · exact absurd List.nil_prefix apart
  have last_step : IsStep last := (normal last (by simp)).1
  have init_normal : IsNormal init := normal.of_append
  have shown : baseName (render (init ++ [last])) = last := by
    obtain ⟨directory, dir, _, e⟩ := render_concat init_normal last
    rw [e, baseName_append dir last_step.no_slash]
  obtain ⟨_, _, _, spelled, target_plain⟩ := ofFile_way extensions indexName normal plain apart
  rw [← spelled] at target_plain
  rw [sameModule, foldSeparators_eq_self target_plain, Accepted, shown,
    ofFile_relative_eq_ofParts extensions indexName normal plain apart]
  have steps : ∀ name ∈ relative init start, IsStep name := isStep_of_mem_relative init_normal
  -- The target is a base with a separator behind it for an index module and a bare base otherwise.
  cases isIndex : stem last extensions == indexName with
  | true =>
    obtain ⟨base, target, bare⟩ := ofParts_index steps (stem last extensions)
    have unstripped : stripIndex indexName (base ++ "/") = base ++ "/" := by
      apply stripIndex_eq_self index_free
      rw [baseName_slash]
      exact index_ne.symm
    rw [target, unstripped, withoutSlash_slash]
    exact sameUpToSlash_slash_iff index_ne index_free bare
  | false =>
    have target_name : baseName (ofParts (joinedDirectory (relative init start))
        (stem last extensions) false) = stem last extensions :=
      baseName_ofParts steps fun mem => last_step.no_slash (mem_of_mem_stem mem)
    generalize ofParts (joinedDirectory (relative init start)) (stem last extensions) false
      = target at target_name
    have bare : baseName target ≠ "" := by
      rw [target_name]
      exact stem_ne_empty last_step.ne_empty nonempty
    have other : baseName target ≠ indexName := by
      rw [target_name]
      simpa using isIndex
    rw [stripIndex_eq_self index_free other, withoutSlash_eq_self bare]
    exact sameUpToSlash_bare_iff index_ne index_free bare other

end ExportCover.Specifier
