import Mathlib.Tactic.Lemma
import ExportCover.Proofs.Exports.Counting

/-!
# Export statements one by one

Without a marker the exports of a program are the outcomes of all its export statements in a row
(`Node.exports_unmarked`). A statement sees the rest of the program through the symbol table only,
and of the table it sees what names are bound to and not in which order they stand
(`Node.exportsOfStatement_congr`). The table is filled with the bindings of all declarations at the
top of the program in a row (`Node.symbolTable_eq`).
-/

namespace ExportCover.Node

/-- The export statements of a program. -/
def exportStatements (program : Node) : List Node :=
  program.namedChildren.filter (·.isExport)

/-- What the declarations at the top of a program bind, in order; a name that is bound twice is
there twice. -/
def topBindings (program : Node) : List (String × BindingKind) :=
  (program.namedChildren.filterMap declaration?).flatMap bindings

/-- The symbol table is filled with the bindings of all declarations at the top in a row. -/
lemma symbolTable_eq (program : Node) : program.symbolTable = program.topBindings.foldl
    (fun (symbols : SymbolTable) (name, kind) => symbols.bind name kind) [] := by
  rw [topBindings, List.foldl_flatMap]
  rfl

/-- The symbol table holds the last binding of a name. -/
lemma kind?_symbolTable_eq (program : Node) (name : String) :
    program.symbolTable.kind? name = program.topBindings.reverse.findSome? (kindIn name) := by
  rw [symbolTable_eq, SymbolTable.kind?_foldl_bind]
  exact Option.or_none

/-- Forgetting what stands before the elements of a list gives the list back. -/
lemma map_snd_withPreceding {α : Type} (before l : List α) :
    (withPreceding before l).map (·.2) = l := by
  induction l generalizing before with
  | nil => rfl
  | cons x rest ih => rw [withPreceding, List.map_cons, ih]

/-- The placed exports are the export statements. -/
lemma map_snd_placedExports (program : Node) :
    program.placedExports.map (·.2) = program.exportStatements := by
  have all := map_snd_withPreceding [] program.children
  rw [exportStatements, namedChildren, ← all, List.filter_map, List.filter_map]
  rfl

/-- Without a marker every export statement counts. -/
lemma exports_unmarked (program : Node) :
    program.exports "" = Exports.join <$>
      program.exportStatements.mapM (·.exportsOfStatement program.symbolTable) := by
  have all : program.placedExports.filter (isUnmarked "") = program.placedExports :=
    List.filter_eq_self.mpr fun _ _ => rfl
  rw [exports_eq_mapM, all, ← map_snd_placedExports, List.mapM_map]
  rfl

/-- A statement sees what names are bound to. -/
lemma exportsOfStatement_congr {symbols symbols' : SymbolTable}
    (alike : ∀ name, symbols.kind? name = symbols'.kind? name) (statement : Node) :
    statement.exportsOfStatement symbols = statement.exportsOfStatement symbols' := by
  have specifiers : ∀ line column, exportsOfSpecifier symbols line column
      = exportsOfSpecifier symbols' line column := by
    intro line column
    funext specifier
    simp only [exportsOfSpecifier, alike]
  rw [exportsOfStatement, exportsOfStatement, exportsOfClauses_eq, exportsOfClauses_eq, specifiers]

end ExportCover.Node
