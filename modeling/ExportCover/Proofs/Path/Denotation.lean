import Mathlib.Data.List.Basic
import ExportCover.Path.Specifier
import ExportCover.Proofs.Path.Names

/-!
# What specifiers denote

A specifier in a test file leads to a place: it is put behind the directory of the file and
normalised. A module has a place of its own, its key. The specifier that is written for a module
leads to the key of that module, from whatever directory it is written, and so does every specifier
that spells the same module (`placeFrom_eq_moduleKey`).
-/

namespace ExportCover.Specifier

open ExportCover.Path

/-- Where a specifier in a test file leads. -/
def placeFrom (testFile specifier : String) : Path :=
  ofText (ofText [] (directoryPart testFile)) specifier

/-- The place that stands for a module file: its directory if it is an index module, and otherwise
the file without its extension. -/
def moduleKey (extensions : List String) (indexName moduleFile : String) : Path :=
  let name := stem (baseName moduleFile) extensions
  if name == indexName then ofText [] (directoryPart moduleFile)
  else ofText [] (directoryPart moduleFile ++ name)

/-- A text without backslashes is folded already. -/
lemma foldSeparators_eq_self {s : String} (plain : '\\' ∉ s.toList) : foldSeparators s = s := by
  have same : s.toList.map (fun c => if c == '\\' then '/' else c) = s.toList.map id := by
    refine List.map_congr_left fun c mem => ?_
    have ne : c ≠ '\\' := fun e => plain (e ▸ mem)
    simp [ne]
  rw [foldSeparators, same, List.map_id, String.ofList_toList]

/-- A single extension is the longest. -/
lemma stem_singleton (name extension : String) :
    stem name [extension] = stripFirst name [extension] := by
  rw [stem, byLength, List.mergeSort_singleton]

/-- A stem has no characters that the name has not. -/
lemma mem_of_mem_stem {name : String} {extensions : List String} {c : Char}
    (mem : c ∈ (stem name extensions).toList) : c ∈ name.toList := by
  rw [stem, stripFirst] at mem
  split at mem
  next =>
    rw [dropEnding] at mem
    split at mem
    next => simp at mem
    next =>
      rw [Text.dropEnd, String.toList_ofList] at mem
      exact List.mem_of_mem_take mem
  next => exact mem

/-- A text from the root is not relative. -/
lemma isRelative_of_isAbsolute {s : String} (absolute : isAbsolute s) : isRelative s = false := by
  obtain ⟨rest, rfl⟩ := isAbsolute_iff.mp absolute
  have folded : (foldSeparators ("/" ++ rest)).toList = '/' :: (foldSeparators rest).toList := by
    simp [foldSeparators]
  have ne : ∀ c cs, foldSeparators ("/" ++ rest) = String.ofList (c :: cs) → c = '/' := by
    intro c cs e
    rw [e, String.toList_ofList] at folded
    exact (List.cons.inj folded).1
  simp only [isRelative, Text.startsWith, folded, Bool.or_eq_false_iff, beq_eq_false_iff_ne]
  refine ⟨⟨⟨fun e => ?_, fun e => ?_⟩, rfl⟩, rfl⟩
  · exact absurd (ne '.' [] e) (by decide)
  · exact absurd (ne '.' ['.'] e) (by decide)

/-- A text whose last name is another one does not end with a separator and the name. -/
lemma not_endsWith_index {indexName s : String} (free : '/' ∉ indexName.toList)
    (ne : baseName s ≠ indexName) : ¬ Text.endsWith s ("/" ++ indexName) := by
  intro ends
  obtain ⟨before, rfl⟩ := Text.endsWith_iff.mp ends
  rw [← String.append_assoc, baseName_append (.some before) free] at ne
  exact ne rfl

/-- Nothing is removed from a text whose last name is not the index name. -/
lemma stripIndex_eq_self {indexName s : String} (free : '/' ∉ indexName.toList)
    (ne : baseName s ≠ indexName) : stripIndex indexName s = s := by
  rw [stripIndex, if_neg (not_endsWith_index free ne)]

/-- A specifier is a directory with the last name behind it, unless it spells an index module. -/
lemma ofParts_eq {directory : String} (dir : IsDirectory directory) (last : String)
    (isIndex : Bool) :
    ∃ directory', IsDirectory directory' ∧ names directory' = names directory ∧
      ofParts directory last isIndex = directory' ++ if isIndex then "" else last := by
  have spelled : (if isIndex then directory else directory ++ last)
      = directory ++ if isIndex then "" else last := by
    cases isIndex with
    | true => simp
    | false => rfl
  simp only [ofParts, spelled]
  generalize (if isIndex then "" else last) = last'
  split
  · exact ⟨directory, dir, rfl, rfl⟩
  · refine ⟨"." ++ "/" ++ directory, dir.below ".", ?_, ?_⟩
    · rw [names_append_slash, names_here, List.nil_append]
    · rw [String.append_assoc]
      rfl

/-- A specifier that is written for a module is not empty and does not start at the root. -/
lemma ofParts_relative (directory last : String) (isIndex : Bool) :
    ofParts directory last isIndex ≠ "" ∧ isAbsolute (ofParts directory last isIndex) = false := by
  simp only [ofParts]
  generalize (if isIndex then directory else directory ++ last) = spelled
  split
  next relative =>
    constructor
    · rintro rfl
      exact absurd relative (by decide)
    · rw [Bool.eq_false_iff]
      intro absolute
      rw [isRelative_of_isAbsolute absolute] at relative
      cases relative
  next =>
    have spelled' : ("./" ++ spelled).toList = '.' :: '/' :: spelled.toList := by simp
    constructor
    · intro e
      rw [e] at spelled'
      cases spelled'
    · rw [isAbsolute, Text.startsWith, spelled']
      rfl

/-- The specifier of a file is not empty and does not start at the root. -/
lemma ofFile_relative (path : String) (extensions : List String) (indexName : String) :
    ofFile path extensions indexName ≠ "" ∧
      isAbsolute (ofFile path extensions indexName) = false :=
  ofParts_relative _ _ _

/-- A slash at the end does not make a path absolute. -/
lemma isAbsolute_slash {a : String} (ne : a ≠ "") : isAbsolute (a ++ "/") = isAbsolute a := by
  simp only [isAbsolute, Text.startsWith, String.toList_append]
  cases e : a.toList with
  | nil => exact absurd (String.toList_eq_nil_iff.mp e) ne
  | cons c cs => rfl

/-- Texts that differ in a separator at the end lead to the same place. -/
lemma ofText_of_sameUpToSlash {a b : String} (start : Path) (ne : b ≠ "")
    (relative : isAbsolute b = false) (same : sameUpToSlash a b) :
    ofText start a = ofText start b := by
  have forms : (a = b ∨ a = b ++ "/") ∨ a ++ "/" = b := by simpa [sameUpToSlash] using same
  -- Either text may be the one with the separator, and only `b` is known to be relative.
  obtain (rfl | rfl) | rfl := forms
  · rfl
  · rw [ofText, ofText, isAbsolute_slash ne, names_slash]
  · have ne' : a ≠ "" := by
      rintro rfl
      exact absurd relative (by decide)
    rw [ofText, ofText, isAbsolute_slash ne', names_slash]

/-- What a specifier spells of a file name: its stem, and nothing of an index module. -/
def leaf (extensions : List String) (indexName name : String) : String :=
  if stem name extensions == indexName then "" else stem name extensions

/-- What a name leaves in a specifier has no characters that the name has not. -/
lemma mem_of_mem_leaf {extensions : List String} {indexName name : String} {c : Char}
    (mem : c ∈ (leaf extensions indexName name).toList) : c ∈ name.toList := by
  rw [leaf] at mem
  split at mem
  · cases mem
  · exact mem_of_mem_stem mem

/-- A leaf is never the index name. -/
lemma leaf_ne {extensions : List String} {indexName name : String} (ne : indexName ≠ "") :
    leaf extensions indexName name ≠ indexName := by
  rw [leaf]
  split
  next => exact ne.symm
  next other => simpa using other

/-- The key of a module is found from its directory by its leaf. -/
lemma moduleKey_render {extensions : List String} {indexName : String} {init : Path} {last : String}
    (normal : IsNormal init) (free : '/' ∉ last.toList) :
    moduleKey extensions indexName (render (init ++ [last]))
      = follow init (names (leaf extensions indexName last)) := by
  obtain ⟨directory, dir, split, e⟩ := render_concat normal last
  have down : ∀ rest, follow [] (init ++ rest) = follow init rest := by
    intro rest
    rw [follow_append, follow_down [] fun name mem => (normal name mem).2, List.nil_append]
  have from_root : ∀ rest, ofText [] (directory ++ rest) = follow init (names rest) := by
    intro rest
    rw [ofText, ite_self, names_directory dir, split, down]
  rw [moduleKey, e, baseName_append dir free, directoryPart_append dir free, leaf]
  split
  · have here := from_root ""
    rwa [String.append_empty] at here
  · exact from_root _

/-- A specifier is made of characters of the path and of `./`. -/
lemma notMem_ofParts {directory last : String} {isIndex : Bool} {c : Char}
    (ne_dot : c ≠ '.') (ne_slash : c ≠ '/') (free : c ∉ directory.toList)
    (free' : c ∉ last.toList) : c ∉ (ofParts directory last isIndex).toList := by
  have spelled : c ∉ (if isIndex then directory else directory ++ last).toList := by
    cases isIndex with
    | true => exact free
    | false => simp [free, free']
  simp only [ofParts]
  generalize (if isIndex then directory else directory ++ last) = text at spelled
  split
  · exact spelled
  · simp [spelled, ne_dot, ne_slash]

/-- The specifier of a file is made of its directory and its stem. -/
lemma ofFile_append {directory last : String} (dir : IsDirectory directory) (ne : directory ≠ "/")
    (free : '/' ∉ last.toList) (plain : '\\' ∉ (directory ++ last).toList)
    (extensions : List String) (indexName : String) :
    ofFile (directory ++ last) extensions indexName
      = ofParts directory (stem last extensions) (stem last extensions == indexName) := by
  simp only [ofFile]
  rw [foldSeparators_eq_self plain, baseName_append dir free, Specifier.directory,
    directoryPart_append dir free]
  simp [ne]

/-- The specifier of a file is a directory and the leaf of the file's name. -/
lemma ofFile_eq (extensions : List String) (indexName : String) {init : List String} {last : String}
    (steps : ∀ name ∈ init, IsStep name) (free : '/' ∉ last.toList)
    (plain : ∀ name ∈ init ++ [last], '\\' ∉ name.toList) :
    ∃ directory, IsDirectory directory ∧ names directory = init ∧
      ofFile ("/".intercalate (init ++ [last])) extensions indexName
        = directory ++ leaf extensions indexName last ∧
      '\\' ∉ (directory ++ leaf extensions indexName last).toList := by
  obtain ⟨part, dir, ne, split, e⟩ := intercalate_concat steps last
  have plain' := notMem_intercalate (by decide) plain
  rw [e] at plain'
  have written := ofFile_append dir ne free plain' extensions indexName
  rw [← e] at written
  obtain ⟨directory', dir', split', e'⟩ :=
    ofParts_eq dir (stem last extensions) (stem last extensions == indexName)
  have spelled : directory' ++ leaf extensions indexName last
      = ofParts part (stem last extensions) (stem last extensions == indexName) := e'.symm
  refine ⟨directory', dir', split'.trans split, written.trans e', ?_⟩
  rw [spelled]
  rw [String.toList_append, List.mem_append, not_or] at plain'
  refine notMem_ofParts (by decide) (by decide) plain'.1 fun mem => ?_
  exact plain'.2 (mem_of_mem_stem mem)

/-- How a module is spelled from a directory that it is not above: the way to its directory and its
leaf. -/
lemma ofFile_way (extensions : List String) (indexName : String) {start init : Path} {last : String}
    (normal : IsNormal (init ++ [last])) (plain : ∀ name ∈ init ++ [last], '\\' ∉ name.toList)
    (apart : ¬ init ++ [last] <+: start) :
    ∃ directory, IsDirectory directory ∧ names directory = relative init start ∧
      ofFile (renderNames (relative (init ++ [last]) start)) extensions indexName
        = directory ++ leaf extensions indexName last ∧
      '\\' ∉ (directory ++ leaf extensions indexName last).toList := by
  have plain_way : ∀ name ∈ relative init start ++ [last], '\\' ∉ name.toList := by
    rw [← relative_concat apart]
    exact notMem_of_mem_relative (by decide) plain
  rw [relative_concat apart, renderNames_concat]
  exact ofFile_eq extensions indexName (isStep_of_mem_relative normal.of_append)
    (normal last (by simp)).1.no_slash plain_way

/-- A specifier in a test file that spells a module leads to the key of that module. -/
theorem placeFrom_eq_moduleKey {extensions : List String} {indexName testFile specifier : String}
    {place : Path} (index_ne : indexName ≠ "") (index_free : '/' ∉ indexName.toList)
    (normal : IsNormal place) (plain : ∀ name ∈ place, '\\' ∉ name.toList)
    (apart : ¬ place <+: ofText [] (directoryPart testFile))
    (same : sameModule indexName specifier
      (ofFile (renderNames (relative place (ofText [] (directoryPart testFile)))) extensions
        indexName)) :
    placeFrom testFile (stripIndex indexName (foldSeparators specifier))
      = moduleKey extensions indexName (render place) := by
  rw [placeFrom]
  generalize ofText [] (directoryPart testFile) = start at apart same
  obtain rfl | ⟨init, last, rfl⟩ := List.eq_nil_or_concat' place
  · exact absurd List.nil_prefix apart
  have init_normal : IsNormal init := normal.of_append
  have last_free : '/' ∉ last.toList := (normal last (by simp)).1.no_slash
  have free : '/' ∉ (leaf extensions indexName last).toList :=
    fun mem => last_free (mem_of_mem_leaf mem)
  obtain ⟨directory, dir, split, written, plain_target⟩ :=
    ofFile_way extensions indexName normal plain apart
  obtain ⟨ne, relative⟩ :=
    ofFile_relative (renderNames (relative (init ++ [last]) start)) extensions indexName
  rw [written] at same ne relative
  -- The last name of the target is a leaf and no index name, so nothing is stripped from it.
  have unstripped : stripIndex indexName (directory ++ leaf extensions indexName last)
      = directory ++ leaf extensions indexName last := by
    apply stripIndex_eq_self index_free
    rw [baseName_append dir free]
    exact leaf_ne index_ne
  rw [sameModule, foldSeparators_eq_self plain_target, unstripped] at same
  calc ofText start (stripIndex indexName (foldSeparators specifier))
    _ = ofText start (directory ++ leaf extensions indexName last) :=
      ofText_of_sameUpToSlash start ne relative same
    _ = follow (follow start (Path.relative init start))
          (names (leaf extensions indexName last)) := by
      rw [ofText, relative, names_directory dir, split, follow_append]
      rfl
    _ = follow init (names (leaf extensions indexName last)) := by
      rw [follow_relative start init_normal]
    _ = moduleKey extensions indexName (render (init ++ [last])) :=
      (moduleKey_render init_normal last_free).symm

end ExportCover.Specifier
