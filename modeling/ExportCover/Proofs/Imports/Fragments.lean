import Mathlib.Algebra.Order.Group.Nat
import Mathlib.Algebra.Order.BigOperators.Group.List
import ExportCover.Proofs.Path.Comparison
import ExportCover.Source.Program
import ExportCover.Imports

/-!
# Sources of import statements

An import statement names what stands between the quotes of its source. The runs of characters
between escapes are read one by one, though, and each of them that is relative is taken for a
specifier. Where every such run is the whole source this makes no difference: every statement with a
relative source has one import, and the others have none (`importFacts_eq_iff`). A source that is
cut up gives an import for each of its relative runs, under the names that the statement binds.
-/

namespace ExportCover.Node

open Specifier (isRelative)

/-- The import statements below a node, in the order of the text. -/
def importStatements (root : Node) : List Node :=
  root.preorder.filter fun node => node.kind == "import_statement" && node.named

/-- The strings that stand as the source of a statement. -/
def sourceStrings (statement : Node) : List Node :=
  statement.children.filter fun child =>
    child.field == some "source" && child.kind == "string" && child.named

/-- What stands between the quotes of a string. -/
def quoted (string : Node) : String :=
  Text.dropEnds string.text

/-- A piece of a string is a run of characters, and it is a relative specifier. -/
def isRelativeRun (piece : Node) : Bool :=
  isRelative piece.text && piece.kind == "string_fragment"

/-- The runs of characters of a string that are relative specifiers. -/
def relativeRuns (string : Node) : List String :=
  (string.namedChildren.filter isRelativeRun).map (·.text)

/-- The import of a module under the names that a statement binds. -/
def importAs (statement : Node) (specifier : String) : ImportFact :=
  ⟨specifier, ImportedNames.ofStatement statement⟩

/-- The imports of a statement, one for each relative run in its source. -/
def runImports (statement : Node) : List ImportFact :=
  (statement.sourceStrings.flatMap relativeRuns).map statement.importAs

/-- The import that a statement with a relative source stands for. -/
def wholeImport? (statement : Node) : Option ImportFact :=
  ((statement.sourceStrings.head?.map quoted).filter isRelative).map statement.importAs

/-- A piece of a string is a run of characters or an escape, which starts with a backslash. -/
def IsPiece (piece : Node) : Prop :=
  piece.kind = "string_fragment" ∨
    piece.kind = "escape_sequence" ∧ piece.text.toList.head? = some '\\'

/-- What stands between the quotes of a string are its pieces. -/
structure IsLiteral (string : Node) : Prop where
  pieces : ∀ piece ∈ string.namedChildren, piece.IsPiece
  text : string.quoted.toList = string.namedChildren.flatMap (·.text.toList)

/-- A statement has at most one source. -/
structure HasSource (statement : Node) : Prop where
  single : statement.sourceStrings.length ≤ 1
  literal : ∀ string ∈ statement.sourceStrings, string.IsLiteral

/-- A run of characters in the source of a statement is relative, and there is more to the source. -/
def IsCutUp (statement : Node) : Prop :=
  ∃ string ∈ statement.sourceStrings, ∃ run ∈ string.relativeRuns, run ≠ string.quoted

/-- Whether a node is a piece of a string can be computed. -/
instance (piece : Node) : Decidable piece.IsPiece :=
  inferInstanceAs (Decidable (_ ∨ _ ∧ _))

/-- Whether a string is made of its pieces can be computed. -/
instance (string : Node) : Decidable string.IsLiteral :=
  decidable_of_iff ((∀ piece ∈ string.namedChildren, piece.IsPiece) ∧
      string.quoted.toList = string.namedChildren.flatMap (·.text.toList))
    ⟨fun ⟨pieces, text⟩ => ⟨pieces, text⟩, fun literal => ⟨literal.pieces, literal.text⟩⟩

/-- Whether a statement has a source can be computed. -/
instance (statement : Node) : Decidable statement.HasSource :=
  decidable_of_iff (statement.sourceStrings.length ≤ 1 ∧
      ∀ string ∈ statement.sourceStrings, string.IsLiteral)
    ⟨fun ⟨single, literal⟩ => ⟨single, literal⟩, fun source => ⟨source.single, source.literal⟩⟩

/-- Whether a source is cut up can be computed. -/
instance (statement : Node) : Decidable statement.IsCutUp :=
  inferInstanceAs (Decidable (∃ string ∈ statement.sourceStrings, _))

variable {statement string : Node} {specifier : String}

/-- A relative run is a run of characters that is relative. -/
lemma isRelativeRun_iff {piece : Node} :
    piece.isRelativeRun ↔ isRelative piece.text ∧ piece.kind = "string_fragment" := by
  rw [isRelativeRun, Bool.and_eq_true, beq_iff_eq]

/-- The relative runs of a string are the texts of some of its pieces. -/
lemma mem_relativeRuns : specifier ∈ string.relativeRuns ↔
    ∃ piece ∈ string.namedChildren, piece.isRelativeRun ∧ piece.text = specifier := by
  simp only [relativeRuns, List.mem_map, List.mem_filter, and_assoc]

/-- Relative runs are relative. -/
lemma isRelative_of_mem_relativeRuns (mem : specifier ∈ string.relativeRuns) :
    isRelative specifier := by
  obtain ⟨piece, _, run, rfl⟩ := mem_relativeRuns.mp mem
  exact (isRelativeRun_iff.mp run).1

/-- The imports below a node are those of the relative runs in its statements. -/
lemma importFacts_eq_flatMap (root : Node) :
    root.importFacts = root.importStatements.flatMap runImports := by
  rw [importFacts, importSources, List.filterMap_flatMap]
  refine List.flatMap_congr fun statement _ => ?_
  rw [List.filterMap_map, sourceFragments, List.filterMap_flatMap, runImports, List.map_flatMap]
  refine List.flatMap_congr fun string _ => ?_
  have runs : string.relativeRuns
      = ((string.childrenOf "string_fragment").filter (isRelative ·.text)).map (·.text) := by
    rw [childrenOf, List.filter_filter]
    rfl
  rw [runs, List.map_map, ← List.filterMap_eq_map, List.filterMap_filter]
  refine List.filterMap_congr fun piece _ => ?_
  simp only [Function.comp, Specifier.isDependency, importAs]
  by_cases relative : isRelative piece.text <;> simp [relative]

/-- A relative specifier is not empty. -/
lemma ne_empty_of_isRelative (relative : isRelative specifier) : specifier ≠ "" := by
  rintro rfl
  exact absurd relative (by decide)

/-- The first piece of a relative text that is not empty is a run of characters. -/
lemma exists_run_of_pieces {pieces : List Node} (formed : ∀ piece ∈ pieces, piece.IsPiece)
    (text : specifier.toList = pieces.flatMap (·.text.toList)) (relative : isRelative specifier) :
    ∃ piece ∈ pieces, piece.isRelativeRun ∧ piece.text.toList <+: specifier.toList := by
  induction pieces with
  | nil => exact absurd (String.toList_eq_nil_iff.mp text) (ne_empty_of_isRelative relative)
  | cons piece rest ih =>
    rw [List.flatMap_cons] at text
    obtain empty | ne := eq_or_ne piece.text ""
    · rw [empty, String.toList_empty, List.nil_append] at text
      obtain ⟨run, mem, found⟩ := ih (fun other mem => formed other (List.mem_cons_of_mem _ mem)) text
      exact ⟨run, List.mem_cons_of_mem _ mem, found⟩
    · have starts : piece.text.toList <+: specifier.toList := text ▸ List.prefix_append _ _
      have opens := Specifier.isRelative_of_prefix starts ne relative
      obtain run | ⟨_, escape⟩ := formed piece List.mem_cons_self
      · exact ⟨piece, List.mem_cons_self, isRelativeRun_iff.mpr ⟨opens, run⟩, starts⟩
      · -- An escape would make the text start with a separator.
        obtain ⟨tail, behind⟩ := List.head?_eq_some_iff.mp escape
        exact absurd opens (Specifier.not_isRelative_backslash behind)

/-- A relative source has a relative run at its start. -/
lemma IsLiteral.exists_run (literal : string.IsLiteral) (relative : isRelative string.quoted) :
    ∃ run ∈ string.relativeRuns, run.toList <+: string.quoted.toList := by
  obtain ⟨piece, mem, run, starts⟩ := exists_run_of_pieces literal.pieces literal.text relative
  exact ⟨piece.text, mem_relativeRuns.mpr ⟨piece, mem, run, rfl⟩, starts⟩

/-- Pieces of some length take up that much of the text, each of them. -/
lemma length_filter_mul_le {pieces : List Node} {p : Node → Bool} {n : Nat}
    (long : ∀ piece ∈ pieces, p piece → n ≤ piece.text.toList.length) :
    (pieces.filter p).length * n ≤ (pieces.flatMap (·.text.toList)).length := by
  induction pieces with
  | nil => simp
  | cons piece rest ih =>
    have behind := ih fun other mem => long other (List.mem_cons_of_mem _ mem)
    rw [List.flatMap_cons, List.length_append, List.filter_cons]
    split
    next kept =>
      have here := long piece List.mem_cons_self kept
      rw [List.length_cons, Nat.succ_mul]
      omega
    next => omega

/-- A source leaves room for one run only that is all of it. -/
lemma IsLiteral.relativeRuns_length_le (literal : string.IsLiteral)
    (relative : isRelative string.quoted)
    (whole : ∀ run ∈ string.relativeRuns, run = string.quoted) :
    string.relativeRuns.length ≤ 1 := by
  have fits : (string.namedChildren.filter isRelativeRun).length * string.quoted.toList.length
      ≤ (string.namedChildren.flatMap (·.text.toList)).length := by
    refine length_filter_mul_le fun piece mem run => ?_
    rw [whole piece.text (mem_relativeRuns.mpr ⟨piece, mem, run, rfl⟩)]
  have positive : 0 < string.quoted.toList.length := by
    rw [List.length_pos_iff, Ne, String.toList_eq_nil_iff]
    exact ne_empty_of_isRelative relative
  rw [relativeRuns, List.length_map]
  rw [← literal.text] at fits
  refine Nat.le_of_mul_le_mul_right ?_ positive
  rw [Nat.one_mul]
  exact fits

/-- The relative runs of a source are the source if it is relative and nothing otherwise, exactly if
each of them is all of it. -/
lemma IsLiteral.relativeRuns_eq_iff (literal : string.IsLiteral) :
    string.relativeRuns = ((some string.quoted).filter isRelative).toList ↔
      ∀ run ∈ string.relativeRuns, run = string.quoted := by
  constructor
  · intro same run mem
    rw [same, Option.mem_toList, Option.filter_eq_some_iff] at mem
    exact (Option.some.inj mem.1).symm
  intro whole
  by_cases relative : isRelative string.quoted
  · obtain ⟨run, mem, _⟩ := literal.exists_run relative
    have single := literal.relativeRuns_length_le relative whole
    obtain ⟨only, e⟩ := List.length_eq_one_iff.mp
      (le_antisymm single (List.length_pos_of_mem mem))
    rw [e, whole only (by rw [e]; exact List.mem_singleton_self only), Option.filter_some,
      if_pos relative, Option.toList_some]
  · have none : string.relativeRuns = [] := by
      refine List.eq_nil_iff_forall_not_mem.mpr fun run mem => relative ?_
      rw [← whole run mem]
      exact isRelative_of_mem_relativeRuns mem
    rw [none, Option.filter_some, if_neg relative, Option.toList_none]

/-- A statement is cut up, or its imports are the one that it stands for. -/
lemma HasSource.runImports_eq_iff (source : statement.HasSource) :
    statement.runImports = statement.wholeImport?.toList ↔ ¬ statement.IsCutUp := by
  have single := source.single
  match found : statement.sourceStrings with
  | [] => simp [runImports, wholeImport?, IsCutUp, found]
  | [string] =>
    have literal := source.literal string (by rw [found]; exact List.mem_singleton_self string)
    have named : Function.Injective statement.importAs := fun a b same =>
      congrArg ImportFact.specifier same
    simp only [runImports, wholeImport?, IsCutUp, found, List.flatMap_singleton, List.head?_cons,
      Option.map_some, Option.toList_map, List.mem_singleton, exists_eq_left]
    rw [(List.map_injective_iff.mpr named).eq_iff, literal.relativeRuns_eq_iff]
    push Not
    rfl
  | _ :: _ :: _ =>
    rw [found] at single
    exact absurd single (by simp)

/-- Nothing that a statement stands for is lost: what it binds is imported under a specifier with
which its source starts. -/
lemma HasSource.exists_runImport (source : statement.HasSource) {fact : ImportFact}
    (whole : statement.wholeImport? = some fact) :
    ∃ part ∈ statement.runImports, part.bound = fact.bound ∧
      part.specifier.toList <+: fact.specifier.toList := by
  obtain ⟨specifier, kept, rfl⟩ := Option.map_eq_some_iff.mp whole
  obtain ⟨named, relative⟩ := Option.filter_eq_some_iff.mp kept
  obtain ⟨string, first, rfl⟩ := Option.map_eq_some_iff.mp named
  have mem := List.mem_of_head? first
  obtain ⟨run, among, starts⟩ := (source.literal string mem).exists_run relative
  refine ⟨statement.importAs run, ?_, rfl, starts⟩
  exact List.mem_map_of_mem (List.mem_flatMap.mpr ⟨string, mem, among⟩)

/-- A source that stands for an import has at least one relative run. -/
lemma HasSource.length_wholeImport_le (source : statement.HasSource) :
    statement.wholeImport?.toList.length ≤ statement.runImports.length := by
  cases whole : statement.wholeImport? with
  | none => exact Nat.zero_le _
  | some fact =>
    obtain ⟨part, mem, _⟩ := source.exists_runImport whole
    exact List.length_pos_of_mem mem

/-- Two concatenations of parts, the first of which are nowhere shorter, agree exactly if they agree
part by part. -/
lemma flatMap_eq_iff {α β : Type} {l : List α} {f g : α → List β}
    (longer : ∀ x ∈ l, (g x).length ≤ (f x).length) :
    l.flatMap f = l.flatMap g ↔ ∀ x ∈ l, f x = g x := by
  refine ⟨fun same => ?_, List.flatMap_congr⟩
  induction l with
  | nil => simp
  | cons head rest ih =>
    rw [List.forall_mem_cons] at longer ⊢
    rw [List.flatMap_cons, List.flatMap_cons] at same
    have total := congrArg List.length same
    have behind : (rest.flatMap g).length ≤ (rest.flatMap f).length := by
      rw [List.length_flatMap, List.length_flatMap]
      exact List.sum_le_sum longer.2
    rw [List.length_append, List.length_append] at total
    have here := longer.1
    obtain ⟨equal, equal'⟩ := List.append_inj same (by omega)
    exact ⟨equal, ih longer.2 equal'⟩

/-- There is one import for each statement with a relative source, in the order of the text, and no
other, exactly if no statement is cut up. One that is cut up has an import for each relative run in
its source instead. Either way the names that a statement with a relative source binds are imported,
under a specifier with which the source starts. -/
theorem importFacts_eq_iff {root : Node}
    (sources : ∀ statement ∈ root.importStatements, statement.HasSource) :
    (root.importFacts = root.importStatements.filterMap wholeImport? ↔
      ∀ statement ∈ root.importStatements, ¬ statement.IsCutUp) ∧
    (root.importFacts = root.importStatements.flatMap fun statement =>
      if statement.IsCutUp then statement.runImports else statement.wholeImport?.toList) ∧
    ∀ fact ∈ root.importStatements.filterMap wholeImport?, ∃ part ∈ root.importFacts,
      part.bound = fact.bound ∧ part.specifier.toList <+: fact.specifier.toList := by
  rw [importFacts_eq_flatMap]
  refine ⟨?_, List.flatMap_congr fun statement mem => ?_, fun fact mem => ?_⟩
  · rw [List.filterMap_eq_flatMap_toList,
      flatMap_eq_iff fun statement mem => (sources statement mem).length_wholeImport_le]
    exact forall₂_congr fun statement mem => (sources statement mem).runImports_eq_iff
  · split
    next => rfl
    next uncut => exact (sources statement mem).runImports_eq_iff.mpr uncut
  · obtain ⟨statement, mem, whole⟩ := List.mem_filterMap.mp mem
    obtain ⟨part, among, found⟩ := (sources statement mem).exists_runImport whole
    exact ⟨part, List.mem_flatMap.mpr ⟨statement, mem, among⟩, found⟩

/-- A program that imports a name, a default from a package with an escape in its source, and a
module of which it binds nothing. -/
def plainImports : Node :=
  (Program.parse .typescript
    (Text.encode "import { f } from './a'\nimport x from 'b\\x2fc'\nimport './d'")).root

/-- No statement in it is cut up, so that the relative sources are imported as they are. -/
theorem importFacts_plain :
    (∀ statement ∈ plainImports.importStatements, statement.HasSource) ∧
      plainImports.importFacts = plainImports.importStatements.filterMap wholeImport? := by
  have sources : ∀ statement ∈ plainImports.importStatements, statement.HasSource := by
    decide +kernel
  exact ⟨sources, (importFacts_eq_iff sources).1.mpr (by decide +kernel)⟩

/-- A program that imports from a file of the project and from a package by sources that are cut up. -/
def cutImports : Node :=
  (Program.parse .typescript
    (Text.encode "import { f } from './a\\x2f./b'\nimport { g } from 'pkg\\x2f./m'")).root

/-- The first statement has two imports, neither of them under its source. The second one has one as
if its source were relative. -/
theorem importFacts_cut :
    (∀ statement ∈ cutImports.importStatements, statement.HasSource) ∧
      cutImports.importFacts = [⟨"./a", ⟨["f"], none, none⟩⟩, ⟨"./b", ⟨["f"], none, none⟩⟩,
        ⟨"./m", ⟨["g"], none, none⟩⟩] ∧
      cutImports.importStatements.filterMap wholeImport?
        = [⟨"./a\\x2f./b", ⟨["f"], none, none⟩⟩] := by
  decide +kernel

end ExportCover.Node
