import Mathlib.Data.List.Nodup
import ExportCover.Proofs.Exports.Statements
import ExportCover.Source.Program

/-!
# The order of statements

A program in which no name is bound twice has the same exports in every order of its statements
(`Node.exports_rearranged`). The symbol table is filled by statements that overwrite each other, and
every export list reads the whole table; but without a name that is bound twice nothing is
overwritten, so that the kind of a name does not depend on the order.
-/

namespace ExportCover.Node

/-- No name is bound by two declarators or declarations of functions at the top of the program. -/
def BindsOnce (program : Node) : Prop :=
  (program.topBindings.map (·.1)).Nodup

/-- Whether a program binds each name once can be computed. -/
instance (program : Node) : Decidable program.BindsOnce :=
  inferInstanceAs (Decidable (List.Nodup _))

/-- Of names that are bound once the last binding is the only one. -/
lemma findSome?_kindIn_iff {bindings : List (String × BindingKind)}
    (once : (bindings.map (·.1)).Nodup) {name : String} {kind : BindingKind} :
    bindings.reverse.findSome? (kindIn name) = some kind ↔ (name, kind) ∈ bindings := by
  constructor
  · intro found
    obtain ⟨_, mem, same⟩ := List.exists_of_findSome?_eq_some found
    cases kindIn_eq_some_iff.mp same
    exact List.mem_reverse.mp mem
  · intro mem
    cases found : bindings.reverse.findSome? (kindIn name) with
    | none =>
      have absent := List.findSome?_eq_none_iff.mp found (name, kind) (List.mem_reverse.mpr mem)
      cases absent.symm.trans (kindIn_eq_some_iff.mpr rfl)
    | some other =>
      obtain ⟨_, mem', same⟩ := List.exists_of_findSome?_eq_some found
      cases kindIn_eq_some_iff.mp same
      -- The name stands in one binding only.
      cases List.inj_on_of_nodup_map once (List.mem_reverse.mp mem') mem rfl
      rfl

variable {program program' : Node}

/-- Children in another order bind the same names in another order. -/
lemma topBindings_perm (rearranged : program'.children.Perm program.children) :
    program'.topBindings.Perm program.topBindings :=
  ((rearranged.filter _).filterMap _).flatMap_right _

/-- What a name is bound to does not depend on the order of the statements. -/
lemma kind?_symbolTable_rearranged (rearranged : program'.children.Perm program.children)
    (once : program.BindsOnce) (name : String) :
    program'.symbolTable.kind? name = program.symbolTable.kind? name := by
  have bindings := topBindings_perm rearranged
  have once' : (program'.topBindings.map (·.1)).Nodup := (bindings.map _).nodup_iff.mpr once
  rw [kind?_symbolTable_eq, kind?_symbolTable_eq]
  refine Option.ext fun kind => ?_
  rw [findSome?_kindIn_iff once', findSome?_kindIn_iff once]
  exact bindings.mem_iff

/-- A statement only fails because of a declarator without a name. -/
lemma fault_of_exportsOfStatement {statement : Node} {symbols : SymbolTable} {fault : Fault}
    (failed : statement.exportsOfStatement symbols = .error fault) :
    fault = .namelessDeclarator :=
  (exportsOfStatement_eq_error_iff.mp failed).1

/-- The exports of a program do not depend on the order of its statements as long as no name is
bound twice: the functions are the same and so are the exports that are not checked, each as often
and at its place. A program whose exports cannot be told has none in any order. -/
theorem exports_rearranged (rearranged : program'.children.Perm program.children)
    (once : program.BindsOnce) :
    (∃ exports exports', program.exports "" = .ok exports ∧ program'.exports "" = .ok exports' ∧
      exports'.functions.Perm exports.functions ∧ exports'.unchecked.Perm exports.unchecked) ∨
    program.exports "" = .error .namelessDeclarator ∧
      program'.exports "" = .error .namelessDeclarator := by
  have statements : program'.exportStatements.Perm program.exportStatements :=
    (rearranged.filter _).filter _
  -- The order bears on what names are bound to, and on nothing else that a statement reads.
  have alike : (fun statement : Node => statement.exportsOfStatement program'.symbolTable)
      = fun statement => statement.exportsOfStatement program.symbolTable :=
    funext (exportsOfStatement_congr (kind?_symbolTable_rearranged rearranged once))
  rw [exports_unmarked, exports_unmarked, alike]
  have only : ∀ {statements : List Node} {fault : Fault}, statements.mapM
      (fun statement => statement.exportsOfStatement program.symbolTable) = .error fault →
      fault = .namelessDeclarator := fun failed =>
    have ⟨_, _, failed⟩ := Outcome.exists_of_mapM_eq_error failed
    fault_of_exportsOfStatement failed
  obtain ⟨parts, parts', here, there, perm⟩ | ⟨fault, fault', here, there⟩ :=
    Outcome.mapM_perm (f := fun statement => statement.exportsOfStatement program.symbolTable)
      statements
  · rw [here, there]
    exact .inl ⟨_, _, rfl, rfl, perm.flatMap_right _, perm.flatMap_right _⟩
  · cases only here
    cases only there
    rw [here, there]
    exact .inr ⟨rfl, rfl⟩

/-- The same statements in the opposite order. -/
def reversed (program : Node) : Node :=
  { program with children := program.children.reverse }

/-- A program in reverse has the same children in another order. -/
lemma reversed_perm (program : Node) : program.reversed.children.Perm program.children :=
  List.reverse_perm program.children

/-- A program with an export list before the declarations that it names. -/
def listedFirst : Node :=
  (Program.parse .typescript (Text.encode
    "export { f as g }\nexport const a = () => 1\nexport default a\nfunction f() {}")).root

/-- The list offers the same when it stands after the declarations. -/
theorem exports_rearranged_listed :
    listedFirst.BindsOnce ∧ ∃ exports, listedFirst.reversed.exports "" = .ok exports ∧
      exports.functions.Perm
        [⟨"g", .reExported, 1, 1⟩, ⟨"a", .arrowBinding, 2, 1⟩] ∧
      exports.unchecked.Perm [⟨"default", "default export", 3, 1⟩] := by
  obtain ⟨once, first⟩ : listedFirst.BindsOnce ∧ listedFirst.exports ""
      = .ok ⟨[⟨"g", .reExported, 1, 1⟩, ⟨"a", .arrowBinding, 2, 1⟩],
        [⟨"default", "default export", 3, 1⟩]⟩ := by decide +kernel
  obtain ⟨exports, exports', here, there, functions, unchecked⟩ | ⟨failed, _⟩ :=
    exports_rearranged (reversed_perm listedFirst) once
  · rw [first] at here
    cases here
    exact ⟨once, exports', there, functions, unchecked⟩
  · rw [first] at failed
    cases failed

end ExportCover.Node
