import Mathlib.Tactic.Lemma
import ExportCover.Proofs.Exports.Binding
import ExportCover.Proofs.Outcome

/-!
# Declarations and export lists

What an exported declaration offers depends on its form (`Node.Form`): a function, a single variable
with an identifier, other variables, or neither. There is one equation for each form, and of a
declarator among others there is one for what it is reported as (`Node.declaratorEntry`). The only
fault of a declaration comes from a declarator (`Node.exportsOfDeclaration_eq_error_iff`). Export
lists offer what their items offer, in a row (`Node.exportsOfClauses_eq`).
-/

namespace ExportCover

namespace Exports

/-- What several statements offer together. -/
def join (parts : List Exports) : Exports :=
  ⟨parts.flatMap (·.functions), parts.flatMap (·.unchecked)⟩

/-- No exports after some change nothing. -/
lemma append_none (a : Exports) : a ++ none = a := by
  change Exports.mk (a.functions ++ []) (a.unchecked ++ []) = a
  rw [List.append_nil, List.append_nil]

/-- Exports of three parts can be put together in either order. -/
lemma append_assoc (a b c : Exports) : a ++ b ++ c = a ++ (b ++ c) := by
  change Exports.mk (a.functions ++ b.functions ++ c.functions)
    (a.unchecked ++ b.unchecked ++ c.unchecked) = _
  rw [List.append_assoc, List.append_assoc]
  rfl

/-- The exports of several parts start with those of the first. -/
lemma join_cons (part : Exports) (rest : List Exports) : join (part :: rest) = part ++ join rest :=
  rfl

/-- No exports before some change nothing. -/
lemma none_append (a : Exports) : none ++ a = a :=
  rfl

/-- Collecting parts after others joins them. -/
lemma foldl_append {α : Type} (part : α → Exports) (l : List α) (found : Exports) :
    l.foldl (fun exports a => exports ++ part a) found = found ++ join (l.map part) := by
  induction l generalizing found with
  | nil => exact (append_none found).symm
  | cons a rest ih => rw [List.foldl_cons, ih, List.map_cons, join_cons, append_assoc]

end Exports

namespace Node

/-- What a declarator is reported as if it is no single identifier; `several` says whether it stands
among others. -/
def declaratorEntry (several : Bool) (line column : Nat) (declarator : Node) :
    Except Fault (Option UncheckedExport) :=
  match declarator.child? "name" with
  | some target =>
    if target.isPattern then .ok (some ⟨target.text, "destructured export", line, column⟩)
    else if several && declarator.bindsArrow then
      .ok (some ⟨target.text, "multi-declarator export", line, column⟩)
    else .ok none
  | none => if several && declarator.bindsArrow then .error .namelessDeclarator else .ok none

/-- The declaration is one of several variables. -/
def isSeveral (declaration : Node) : Bool :=
  declaration.declarators.length > 1

/-- The form of a declaration. -/
inductive Form (declaration : Node) : Prop where
  | function (isFunction : declaration.isFunctionDeclaration)
  | single (noFunction : declaration.isFunctionDeclaration = false)
      (isVariable : declaration.isVariableDeclaration) (declarator name : Node)
      (alone : declaration.declarators = [declarator])
      (named : declarator.identifier? = some name)
  | compound (noFunction : declaration.isFunctionDeclaration = false)
      (isVariable : declaration.isVariableDeclaration)
      (notSingle : ∀ declarator, declaration.declarators = [declarator] →
        declarator.identifier? = none)
  | other (noFunction : declaration.isFunctionDeclaration = false)
      (noVariable : declaration.isVariableDeclaration = false)

/-- Every declaration has one of the four forms. -/
lemma form (declaration : Node) : Form declaration := by
  cases isFunction : declaration.isFunctionDeclaration with
  | true => exact .function isFunction
  | false =>
    cases isVariable : declaration.isVariableDeclaration with
    | false => exact .other isFunction isVariable
    | true =>
      by_cases single : ∃ declarator name, declaration.declarators = [declarator] ∧
          declarator.identifier? = some name
      · obtain ⟨declarator, name, alone, named⟩ := single
        exact .single isFunction isVariable declarator name alone named
      · refine .compound isFunction isVariable fun declarator alone => ?_
        exact Option.eq_none_iff_forall_ne_some.mpr fun name named =>
          single ⟨declarator, name, alone, named⟩

variable {declaration : Node}

/-- A function declaration exports its name, if it has one. -/
lemma exportsOfDeclaration_function (isFunction : declaration.isFunctionDeclaration)
    (line column : Nat) : declaration.exportsOfDeclaration line column
      = .ok ⟨((declaration.child? "name").map fun name =>
        ⟨name.text, .namedFunction, line, column⟩).toList, []⟩ := by
  rw [exportsOfDeclaration, if_pos isFunction]

/-- A declaration of one identifier exports it if it is bound to an arrow function. -/
lemma exportsOfDeclaration_single {declarator name : Node}
    (noFunction : declaration.isFunctionDeclaration = false)
    (isVariable : declaration.isVariableDeclaration)
    (alone : declaration.declarators = [declarator]) (named : declarator.identifier? = some name)
    (line column : Nat) : declaration.exportsOfDeclaration line column
      = .ok ⟨if declarator.bindsArrow then [⟨name.text, .arrowBinding, line, column⟩] else [],
        []⟩ := by
  rw [exportsOfDeclaration, if_neg (by simp [noFunction]), if_pos isVariable]
  simp only [alone, named, List.map_cons, List.map_nil]

/-- A declaration of several names or of a pattern exports nothing that is checked. -/
lemma exportsOfDeclaration_compound (noFunction : declaration.isFunctionDeclaration = false)
    (isVariable : declaration.isVariableDeclaration)
    (notSingle : ∀ declarator, declaration.declarators = [declarator] →
      declarator.identifier? = none)
    (line column : Nat) : declaration.exportsOfDeclaration line column
      = (fun unchecked => ⟨[], unchecked⟩) <$> declaration.declarators.filterMapM
        (declaratorEntry declaration.isSeveral line column) := by
  rw [exportsOfDeclaration, if_neg (by simp [noFunction]), if_pos isVariable]
  dsimp only
  split
  next declarator name alone named =>
    have named : declarator.identifier? = some name := by simpa [alone] using named
    cases (notSingle declarator alone).symm.trans named
  next => rfl

/-- Declarations of other kinds export nothing. -/
lemma exportsOfDeclaration_other (noFunction : declaration.isFunctionDeclaration = false)
    (noVariable : declaration.isVariableDeclaration = false) (line column : Nat) :
    declaration.exportsOfDeclaration line column = .ok Exports.none := by
  rw [exportsOfDeclaration, if_neg (by simp [noFunction]), if_neg (by simp [noVariable])]

/-! ## Export lists -/

/-- The items of the export lists of a statement. -/
def specifiers (statement : Node) : List Node :=
  (statement.childrenOf "export_clause").flatMap (·.childrenOf "export_specifier")

/-- The export lists of a statement offer what their items offer. -/
lemma exportsOfClauses_eq (statement : Node) (symbols : SymbolTable) :
    statement.exportsOfClauses symbols = if (statement.child? "source").isSome then Exports.none
      else Exports.join (statement.specifiers.map
        (exportsOfSpecifier symbols statement.line statement.column)) := by
  rw [exportsOfClauses, Exports.foldl_append, Exports.none_append]
  rfl

/-! ## The only fault -/

/-- The declaration has several variables, and one without a name holds an arrow function. -/
def HasNamelessArrow (declaration : Node) : Prop :=
  declaration.isVariableDeclaration ∧ 2 ≤ declaration.declarators.length ∧
    ∃ declarator ∈ declaration.declarators,
      declarator.child? "name" = none ∧ declarator.HoldsArrow

variable {statement : Node} {line column : Nat} {fault : Fault}

/-- A declarator only fails because an arrow function among several has no name. -/
lemma declaratorEntry_eq_error_iff {several : Bool} {declarator : Node} :
    declaratorEntry several line column declarator = .error fault ↔
      fault = .namelessDeclarator ∧ several ∧ declarator.child? "name" = none ∧
        declarator.HoldsArrow := by
  rw [declaratorEntry, ← bindsArrow_iff]
  cases declarator.child? "name" with
  | some target =>
    dsimp only
    split
    · simp
    split
    · simp
    · simp
  | none =>
    cases several <;> cases declarator.bindsArrow <;> simp [eq_comm]

/-- The only fault of an exported declaration is a variable without a name among several ones. -/
lemma exportsOfDeclaration_eq_error_iff :
    declaration.exportsOfDeclaration line column = .error fault ↔
      fault = .namelessDeclarator ∧ declaration.HasNamelessArrow := by
  rw [HasNamelessArrow]
  cases declaration.form with
  | function isFunction =>
    rw [exportsOfDeclaration_function isFunction, isVariableDeclaration_eq_false isFunction]
    simp
  | single noFunction isVariable declarator name alone named =>
    rw [exportsOfDeclaration_single noFunction isVariable alone named, alone]
    simp
  | compound noFunction isVariable notSingle =>
    rw [exportsOfDeclaration_compound noFunction isVariable notSingle, Outcome.map_eq_error,
      Outcome.filterMapM_eq_mapM, Outcome.map_eq_error,
      Outcome.mapM_eq_error_iff fun _ _ _ => declaratorEntry_eq_error_iff]
    -- The declarators are gone through one by one, and the first arrow without a name ends that.
    have several : declaration.isSeveral ↔ 2 ≤ declaration.declarators.length :=
      decide_eq_true_iff
    simp only [several, isVariable, true_and]
    constructor
    · rintro ⟨rfl, declarator, mem, isSeveral, nameless⟩
      exact ⟨rfl, isSeveral, declarator, mem, nameless⟩
    · rintro ⟨rfl, isSeveral, declarator, mem, nameless⟩
      exact ⟨rfl, declarator, mem, isSeveral, nameless⟩
  | other noFunction noVariable =>
    rw [exportsOfDeclaration_other noFunction noVariable, noVariable]
    simp

/-- A statement only fails because a declaration in it holds a nameless arrow function. -/
lemma exportsOfStatement_eq_error_iff {symbols : SymbolTable} :
    statement.exportsOfStatement symbols = .error fault ↔
      fault = .namelessDeclarator ∧ statement.isDefaultExport = false ∧
        ∃ declaration ∈ statement.child? "declaration", declaration.HasNamelessArrow := by
  rw [exportsOfStatement]
  cases statement.isDefaultExport with
  | true => simp
  | false =>
    cases statement.child? "declaration" with
    | some declaration => simp [exportsOfDeclaration_eq_error_iff]
    | none => simp

end Node

end ExportCover
