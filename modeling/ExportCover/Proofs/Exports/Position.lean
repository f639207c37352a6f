import Mathlib.Tactic.Lemma
import ExportCover.Proofs.Exports.Declarations

/-!
# Where exports are reported

Whatever an export statement offers, a function or an export that is not checked, is reported at the
start of the statement (`Node.placedAt_statement`). The exports of a program are those of its
unmarked export statements, one after the other (`Node.exports_eq_join`).
-/

namespace ExportCover

namespace Exports

/-- Everything is offered at one place. -/
structure PlacedAt (exports : Exports) (line column : Nat) : Prop where
  functions : ∀ function ∈ exports.functions, function.line = line ∧ function.column = column
  unchecked : ∀ exported ∈ exports.unchecked, exported.line = line ∧ exported.column = column

variable {line column : Nat}

/-- An empty collection stands at any place. -/
lemma PlacedAt.none : PlacedAt none line column :=
  ⟨nofun, nofun⟩

/-- Parts that stand at one place do so together. -/
lemma PlacedAt.join {parts : List Exports} (all : ∀ part ∈ parts, part.PlacedAt line column) :
    (join parts).PlacedAt line column := by
  refine ⟨fun function mem => ?_, fun exported mem => ?_⟩
  · obtain ⟨part, listed, mem⟩ := List.mem_flatMap.mp mem
    exact (all part listed).functions function mem
  · obtain ⟨part, listed, mem⟩ := List.mem_flatMap.mp mem
    exact (all part listed).unchecked exported mem

end Exports

namespace Node

/-- A declarator is reported where its declaration is. -/
lemma place_of_declaratorEntry {several : Bool} {line column : Nat} {declarator : Node}
    {exported : UncheckedExport}
    (entered : declaratorEntry several line column declarator = .ok (some exported)) :
    exported.line = line ∧ exported.column = column := by
  rw [declaratorEntry] at entered
  split at entered
  next target _ =>
    split at entered
    · cases entered
      exact ⟨rfl, rfl⟩
    split at entered
    · cases entered
      exact ⟨rfl, rfl⟩
    · cases entered
  next =>
    split at entered
    · cases entered
    · cases entered

/-- What a declaration exports stands where it is told to. -/
lemma placedAt_declaration {declaration : Node} {line column : Nat} {exports : Exports}
    (extracted : declaration.exportsOfDeclaration line column = .ok exports) :
    exports.PlacedAt line column := by
  cases declaration.form with
  | function isFunction =>
    rw [exportsOfDeclaration_function isFunction] at extracted
    cases extracted
    refine ⟨fun function mem => ?_, nofun⟩
    obtain ⟨name, _, rfl⟩ := Option.map_eq_some_iff.mp (Option.mem_toList.mp mem)
    exact ⟨rfl, rfl⟩
  | single noFunction isVariable declarator name alone named =>
    rw [exportsOfDeclaration_single noFunction isVariable alone named] at extracted
    cases extracted
    refine ⟨fun function mem => ?_, nofun⟩
    split at mem
    · rw [List.mem_singleton.mp mem]
      exact ⟨rfl, rfl⟩
    · cases mem
  | compound noFunction isVariable notSingle =>
    rw [exportsOfDeclaration_compound noFunction isVariable notSingle] at extracted
    obtain ⟨unchecked, collected, rfl⟩ := Outcome.map_eq_ok.mp extracted
    refine ⟨nofun, fun exported mem => ?_⟩
    obtain ⟨declarator, _, entered⟩ := (Outcome.mem_of_filterMapM_eq_ok collected exported).mp mem
    exact place_of_declaratorEntry entered
  | other noFunction noVariable =>
    rw [exportsOfDeclaration_other noFunction noVariable] at extracted
    cases extracted
    exact .none

/-- What a specifier exports stands where it is told to. -/
lemma placedAt_specifier (symbols : SymbolTable) (line column : Nat) (specifier : Node) :
    (exportsOfSpecifier symbols line column specifier).PlacedAt line column := by
  rw [exportsOfSpecifier]
  cases specifier.child? "name" with
  | none => exact .none
  | some localName =>
    dsimp only
    split
    · exact ⟨nofun, by simp⟩
    · split
      · exact ⟨by simp, nofun⟩
      · exact .none

/-- What export lists export stands at the start of their statement. -/
lemma placedAt_clauses (statement : Node) (symbols : SymbolTable) :
    (statement.exportsOfClauses symbols).PlacedAt statement.line statement.column := by
  rw [exportsOfClauses_eq]
  split
  · exact .none
  · refine .join fun part listed => ?_
    obtain ⟨specifier, _, rfl⟩ := List.mem_map.mp listed
    exact placedAt_specifier symbols _ _ specifier

/-- What an export statement offers is offered at its start. -/
lemma placedAt_statement {statement : Node} {symbols : SymbolTable} {exports : Exports}
    (extracted : statement.exportsOfStatement symbols = .ok exports) :
    exports.PlacedAt statement.line statement.column := by
  rw [exportsOfStatement] at extracted
  split at extracted
  · cases extracted
    exact ⟨by simp, by simp⟩
  · cases declared : statement.child? "declaration" with
    | some declaration =>
      rw [declared] at extracted
      exact placedAt_declaration extracted
    | none =>
      rw [declared] at extracted
      cases extracted
      exact placedAt_clauses statement symbols

/-- The statement, given with the siblings before it, has no marker above it. -/
def isUnmarked (marker : String) (placed : List Node × Node) : Bool :=
  !placed.2.isMarked marker placed.1

/-- What an export statement offers; nothing if that cannot be told. -/
def offered (symbols : SymbolTable) (statement : Node) : Exports :=
  (statement.exportsOfStatement symbols).toOption.getD Exports.none

/-- What a statement exports is what it offers. -/
lemma offered_eq {symbols : SymbolTable} {statement : Node} {exports : Exports}
    (extracted : statement.exportsOfStatement symbols = .ok exports) :
    statement.offered symbols = exports := by
  rw [offered, extracted]
  rfl

/-- The exports of a program are those of its unmarked export statements in a row. -/
lemma exports_eq_mapM (program : Node) (marker : String) :
    program.exports marker
      = Exports.join <$> (program.placedExports.filter (isUnmarked marker)).mapM
        fun placed => placed.2.exportsOfStatement program.symbolTable := by
  rw [exports]
  suffices folded : ∀ (placed : List (List Node × Node)) (found : Exports),
      placed.foldlM (fun found placed => do
        return found ++ (← placed.2.exportsOfStatement program.symbolTable)) found
      = (fun parts => found ++ Exports.join parts) <$> placed.mapM fun placed =>
        placed.2.exportsOfStatement program.symbolTable from folded _ Exports.none
  intro placed
  induction placed with
  | nil => exact fun found => congrArg Except.ok (Exports.append_none found).symm
  | cons first rest ih =>
    intro found
    rw [List.foldlM_cons, List.mapM_cons]
    cases first.2.exportsOfStatement program.symbolTable with
    | error fault => rfl
    | ok part =>
      rw [Outcome.ok_bind, Outcome.pure_eq, Outcome.ok_bind, Outcome.ok_bind, ih]
      cases rest.mapM fun placed => placed.2.exportsOfStatement program.symbolTable with
      | error fault => rfl
      | ok parts => exact congrArg Except.ok (Exports.append_assoc found part (.join parts))

/-- The exports of a program are what its unmarked export statements offer, in order. -/
lemma exports_eq_join {program : Node} {marker : String} {exports : Exports}
    (extracted : program.exports marker = .ok exports) :
    (∀ placed ∈ program.placedExports.filter (isUnmarked marker),
      placed.2.exportsOfStatement program.symbolTable
        = .ok (placed.2.offered program.symbolTable)) ∧
    exports = Exports.join ((program.placedExports.filter (isUnmarked marker)).map fun placed =>
      placed.2.offered program.symbolTable) := by
  rw [exports_eq_mapM] at extracted
  obtain ⟨parts, all, rfl⟩ := Outcome.map_eq_ok.mp extracted
  have known : ∀ placed ∈ program.placedExports.filter (isUnmarked marker),
      placed.2.exportsOfStatement program.symbolTable
        = .ok (placed.2.offered program.symbolTable) := by
    intro placed mem
    obtain ⟨part, offers⟩ := Outcome.exists_of_mapM_eq_ok all mem
    rw [offered_eq offers, offers]
  cases all.symm.trans (Outcome.mapM_eq_ok_map known)
  exact ⟨known, rfl⟩

end Node

end ExportCover
