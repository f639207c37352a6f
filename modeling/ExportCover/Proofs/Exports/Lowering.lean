import ExportCover.Proofs.Exports.Declarations
import ExportCover.Proofs.Exports.Statements

/-!
# Statements further down

A statement that stands one row further down binds the same names, and what it offers is reported
one line further down (`Node.exportsOfStatement_lowered`). Nothing but its place depends on rows.
-/

namespace ExportCover

/-- The place one row further down. -/
def Point.lowered (place : Point) : Point :=
  { place with row := place.row + 1 }

namespace Exports

/-- The same exports, reported one line further down. -/
def lowered (exports : Exports) : Exports :=
  ⟨exports.functions.map fun function => { function with line := function.line + 1 },
    exports.unchecked.map fun exported => { exported with line := exported.line + 1 }⟩

/-- Lowering goes through exports of two parts. -/
lemma lowered_append (a b : Exports) : (a ++ b).lowered = a.lowered ++ b.lowered := by
  change mk ((a.functions ++ b.functions).map _) ((a.unchecked ++ b.unchecked).map _) = _
  rw [List.map_append, List.map_append]
  rfl

/-- Lowering goes through exports of several parts. -/
lemma lowered_join (parts : List Exports) : (join parts).lowered = join (parts.map lowered) := by
  induction parts with
  | nil => rfl
  | cons part rest ih => rw [join_cons, lowered_append, ih]; rfl

end Exports

namespace Outcome

variable {α α' β β' : Type}

/-- A filter of elements in another form with values in another form. -/
lemma filterMapM_map {f : α → Except Fault (Option β)} {f' : α' → Except Fault (Option β')}
    {h : α → α'} {g : β → β'} {as : List α} (alike : ∀ a ∈ as, f' (h a) = Option.map g <$> f a) :
    (as.map h).filterMapM f' = List.map g <$> as.filterMapM f := by
  induction as with
  | nil => rfl
  | cons a rest ih =>
    obtain ⟨here, there⟩ := List.forall_mem_cons.mp alike
    rw [List.map_cons, List.filterMapM_cons, List.filterMapM_cons, here, ih there]
    cases f a with
    | error fault => rfl
    | ok chosen =>
      cases chosen with
      | none => rfl
      | some b =>
        cases rest.filterMapM f with
        | error fault => rfl
        | ok bs => rfl

end Outcome

namespace Node

mutual

/-- The node one row further down, with all nodes below it. -/
def lowered : Node → Node
  | ⟨kind, field, named, text, start, stop, children⟩ =>
    ⟨kind, field, named, text, start.lowered, stop.lowered, loweredList children⟩

/-- The nodes of a list one row further down. -/
def loweredList : List Node → List Node
  | [] => []
  | node :: rest => lowered node :: loweredList rest

end

/-- Nodes of a list are lowered one by one. -/
lemma loweredList_eq (nodes : List Node) : loweredList nodes = nodes.map lowered := by
  induction nodes with
  | nil => rfl
  | cons node rest ih => rw [loweredList, ih, List.map_cons]

/-- A lowered node keeps its kind. -/
@[simp]
lemma kind_lowered (node : Node) : node.lowered.kind = node.kind := by
  cases node
  rfl

/-- A lowered node keeps its field. -/
@[simp]
lemma field_lowered (node : Node) : node.lowered.field = node.field := by
  cases node
  rfl

/-- A lowered node stays named. -/
@[simp]
lemma named_lowered (node : Node) : node.lowered.named = node.named := by
  cases node
  rfl

/-- A lowered node keeps its text. -/
@[simp]
lemma text_lowered (node : Node) : node.lowered.text = node.text := by
  cases node
  rfl

/-- A lowered node starts one row further down. -/
@[simp]
lemma start_lowered (node : Node) : node.lowered.start = node.start.lowered := by
  cases node
  rfl

/-- A lowered node stops one row further down. -/
lemma stop_lowered (node : Node) : node.lowered.stop = node.stop.lowered := by
  cases node
  rfl

/-- The children of a lowered node are lowered. -/
@[simp]
lemma children_lowered (node : Node) : node.lowered.children = node.children.map lowered := by
  cases node
  exact loweredList_eq _

/-- A lowered node stands one line further down. -/
lemma line_lowered (node : Node) : node.lowered.line = node.line + 1 := by
  rw [line, start_lowered]
  rfl

/-- A lowered node keeps its column. -/
lemma column_lowered (node : Node) : node.lowered.column = node.column := by
  rw [column, start_lowered]
  rfl

/-- A lowered node spells the same name. -/
lemma spelledName_lowered (node : Node) : node.lowered.spelledName = node.spelledName := by
  rw [spelledName, spelledName, kind_lowered, text_lowered]

/-! ## Look-ups -/

/-- A lowered node has a lowered child in the same field. -/
lemma child?_lowered (node : Node) (field : String) :
    node.lowered.child? field = (node.child? field).map lowered := by
  rw [child?, child?, children_lowered, List.find?_map]
  simp only [Function.comp_def, field_lowered]

/-- Lowering does not change which nodes are named. -/
lemma filter_named_map_lowered (nodes : List Node) :
    (nodes.map lowered).filter (·.named) = (nodes.filter (·.named)).map lowered := by
  rw [List.filter_map]
  simp only [Function.comp_def, named_lowered]

/-- The named children of a lowered node are lowered. -/
lemma namedChildren_lowered (node : Node) :
    node.lowered.namedChildren = node.namedChildren.map lowered := by
  rw [namedChildren, namedChildren, children_lowered, filter_named_map_lowered]

/-- The children of one kind of a lowered node are lowered. -/
lemma childrenOf_lowered (node : Node) (kind : String) :
    node.lowered.childrenOf kind = (node.childrenOf kind).map lowered := by
  rw [childrenOf, childrenOf, namedChildren_lowered, List.filter_map]
  simp only [Function.comp_def, kind_lowered]

/-- Lowering goes through parentheses. -/
lemma unwrap_lowered (node : Node) : node.lowered.unwrap = node.unwrap.map lowered := by
  -- The induction is on the recursion of the function, over a node and a list of nodes at once.
  refine unwrap.induct (fun node => node.lowered.unwrap = node.unwrap.map lowered)
    (fun nodes => unwrapFirst (nodes.map lowered) = (unwrapFirst nodes).map lowered)
    ?parens ?bare ?nil ?first ?skip node
  case parens =>
    intro kind field named text start stop children wrapped ih
    rw [lowered, unwrap, unwrap, if_pos wrapped, if_pos wrapped, loweredList_eq, ih]
  case bare =>
    intro kind field named text start stop children plain
    rw [lowered, unwrap, unwrap, if_neg plain, if_neg plain]
    rfl
  case nil => rfl
  case first =>
    intro node rest isFirst ih
    rw [List.map_cons, unwrapFirst, unwrapFirst, named_lowered, kind_lowered, if_pos isFirst,
      if_pos isFirst, ih]
  case skip =>
    intro node rest skipped ih
    rw [List.map_cons, unwrapFirst, unwrapFirst, named_lowered, kind_lowered, if_neg skipped,
      if_neg skipped, ih]

/-- A lowered declarator binds an arrow function if it did. -/
lemma bindsArrow_lowered (declarator : Node) :
    declarator.lowered.bindsArrow = declarator.bindsArrow := by
  rw [bindsArrow, bindsArrow, child?_lowered]
  cases declarator.child? "value" with
  | none => rfl
  | some value =>
    rw [Option.map_some, Option.bind_some, Option.bind_some, unwrap_lowered]
    cases value.unwrap with
    | none => rfl
    | some inner => exact congrArg (· == "arrow_function") (kind_lowered inner)

/-- The identifier of a lowered declarator is lowered. -/
lemma identifier?_lowered (node : Node) :
    node.lowered.identifier? = node.identifier?.map lowered := by
  rw [identifier?, identifier?, child?_lowered]
  cases node.child? "name" with
  | none => rfl
  | some name =>
    rw [Option.map_some, Option.filter_some, Option.filter_some, kind_lowered]
    cases name.kind == "identifier" with
    | true => rfl
    | false => rfl

/-- Lowering does not make or unmake a function declaration. -/
lemma isFunctionDeclaration_lowered (node : Node) :
    node.lowered.isFunctionDeclaration = node.isFunctionDeclaration := by
  rw [isFunctionDeclaration, isFunctionDeclaration, kind_lowered]

/-- Lowering does not make or unmake a variable declaration. -/
lemma isVariableDeclaration_lowered (node : Node) :
    node.lowered.isVariableDeclaration = node.isVariableDeclaration := by
  rw [isVariableDeclaration, isVariableDeclaration, kind_lowered]

/-- Lowering does not make or unmake a pattern. -/
lemma isPattern_lowered (node : Node) : node.lowered.isPattern = node.isPattern := by
  rw [isPattern, isPattern, kind_lowered]

/-- Lowering does not make or unmake an export statement. -/
lemma isExport_lowered (node : Node) : node.lowered.isExport = node.isExport := by
  rw [isExport, isExport, kind_lowered]

/-- A lowered statement is a default export if it was. -/
lemma isDefaultExport_lowered (node : Node) :
    node.lowered.isDefaultExport = node.isDefaultExport := by
  rw [isDefaultExport, isDefaultExport, children_lowered, List.any_map]
  simp only [Function.comp_def, kind_lowered]

/-- The declarators of a lowered declaration are lowered. -/
lemma declarators_lowered (node : Node) :
    node.lowered.declarators = node.declarators.map lowered :=
  childrenOf_lowered node _

/-! ## Bindings -/

/-- A lowered declaration binds the same names. -/
lemma bindings_lowered (declaration : Node) :
    declaration.lowered.bindings = declaration.bindings := by
  have declarator (node : Node) :
      (node.lowered.identifier?.map fun name => (name.text, node.lowered.boundKind))
        = node.identifier?.map fun name => (name.text, node.boundKind) := by
    rw [identifier?_lowered, boundKind, boundKind, bindsArrow_lowered, Option.map_map]
    simp only [Function.comp_def, text_lowered]
  rw [bindings, bindings, isFunctionDeclaration_lowered, isVariableDeclaration_lowered,
    declarators_lowered, List.filterMap_map, child?_lowered, Option.map_map]
  simp only [Function.comp_def, text_lowered, declarator]

/-- The declaration of a lowered statement is lowered. -/
lemma declaration?_lowered (statement : Node) :
    statement.lowered.declaration? = statement.declaration?.map lowered := by
  rw [declaration?, declaration?, isExport_lowered, child?_lowered]
  split
  · rfl
  · rfl

/-! ## Exports -/

/-- The entry for a lowered declarator is one line further down. -/
lemma declaratorEntry_lowered (several : Bool) (line column : Nat) (declarator : Node) :
    declaratorEntry several (line + 1) column declarator.lowered
      = Option.map (fun exported => { exported with line := exported.line + 1 })
        <$> declaratorEntry several line column declarator := by
  rw [declaratorEntry, declaratorEntry, child?_lowered, bindsArrow_lowered]
  cases declarator.child? "name" with
  | none =>
    cases several && declarator.bindsArrow with
    | true => rfl
    | false => rfl
  | some target =>
    rw [Option.map_some]
    dsimp only
    rw [isPattern_lowered, text_lowered]
    cases target.isPattern with
    | true => rfl
    | false =>
      cases several && declarator.bindsArrow with
      | true => rfl
      | false => rfl

/-- The exports of a lowered declaration are lowered. -/
lemma exportsOfDeclaration_lowered (declaration : Node) (line column : Nat) :
    declaration.lowered.exportsOfDeclaration (line + 1) column
      = Exports.lowered <$> declaration.exportsOfDeclaration line column := by
  have function' := isFunctionDeclaration_lowered declaration
  have variable' := isVariableDeclaration_lowered declaration
  have declarators := declarators_lowered declaration
  -- A declaration keeps its form, so that one equation is used on both sides.
  cases declaration.form with
  | function isFunction =>
    rw [exportsOfDeclaration_function isFunction,
      exportsOfDeclaration_function (function'.trans isFunction), child?_lowered]
    cases declaration.child? "name" with
    | none => rfl
    | some name => rw [Option.map_some, Option.map_some, text_lowered]; rfl
  | single noFunction isVariable declarator name alone named =>
    have named' := identifier?_lowered declarator
    rw [named] at named'
    rw [alone] at declarators
    rw [exportsOfDeclaration_single noFunction isVariable alone named,
      exportsOfDeclaration_single (function'.trans noFunction) (variable'.trans isVariable)
        declarators named', bindsArrow_lowered, text_lowered]
    cases declarator.bindsArrow with
    | true => rfl
    | false => rfl
  | compound noFunction isVariable notSingle =>
    have notSingle' : ∀ other, declaration.lowered.declarators = [other] →
        other.identifier? = none := by
      rw [declarators]
      intro other alone
      obtain ⟨declarator, single, rfl⟩ := List.map_eq_singleton_iff.mp alone
      rw [identifier?_lowered, notSingle declarator single]
      rfl
    have several : declaration.lowered.isSeveral = declaration.isSeveral := by
      rw [isSeveral, isSeveral, declarators, List.length_map]
    rw [exportsOfDeclaration_compound noFunction isVariable notSingle,
      exportsOfDeclaration_compound (function'.trans noFunction) (variable'.trans isVariable)
        notSingle', declarators, several, Outcome.filterMapM_map fun declarator _ =>
        declaratorEntry_lowered _ line column declarator, Functor.map_map, Functor.map_map]
    rfl
  | other noFunction noVariable =>
    rw [exportsOfDeclaration_other noFunction noVariable,
      exportsOfDeclaration_other (function'.trans noFunction) (variable'.trans noVariable)]
    rfl

/-- The exports of a lowered specifier are lowered. -/
lemma exportsOfSpecifier_lowered (symbols : SymbolTable) (line column : Nat) (specifier : Node) :
    exportsOfSpecifier symbols (line + 1) column specifier.lowered
      = (exportsOfSpecifier symbols line column specifier).lowered := by
  rw [exportsOfSpecifier, exportsOfSpecifier, child?_lowered, child?_lowered]
  cases specifier.child? "name" with
  | none => rfl
  | some localName =>
    rw [Option.map_some]
    dsimp only
    rw [Option.getD_map, spelledName_lowered, spelledName_lowered]
    split
    · rfl
    split
    · rfl
    · rfl

/-- The specifiers of a lowered statement are lowered. -/
lemma specifiers_lowered (statement : Node) :
    statement.lowered.specifiers = statement.specifiers.map lowered := by
  rw [specifiers, specifiers, childrenOf_lowered, List.flatMap_map, List.map_flatMap]
  simp only [childrenOf_lowered]

/-- The exports of lowered export lists are lowered. -/
lemma exportsOfClauses_lowered (symbols : SymbolTable) (statement : Node) :
    statement.lowered.exportsOfClauses symbols = (statement.exportsOfClauses symbols).lowered := by
  rw [exportsOfClauses_eq, exportsOfClauses_eq, child?_lowered, Option.isSome_map,
    specifiers_lowered, line_lowered, column_lowered, List.map_map]
  split
  · rfl
  · rw [Exports.lowered_join, List.map_map]
    simp only [Function.comp_def, exportsOfSpecifier_lowered]

/-- A lowered default export has the same label. -/
lemma defaultLabel_lowered (statement : Node) :
    statement.lowered.defaultLabel = statement.defaultLabel := by
  have label (target : Option Node) :
      ((target.map lowered).bind (·.child? "name")).map (·.text)
        = (target.bind (·.child? "name")).map (·.text) := by
    cases target with
    | none => rfl
    | some target =>
      rw [Option.map_some, Option.bind_some, Option.bind_some, child?_lowered, Option.map_map]
      simp only [Function.comp_def, text_lowered]
  rw [defaultLabel, defaultLabel, child?_lowered, child?_lowered, ← Option.map_or, label]

/-- What a statement offers does not depend on its row but for the line of the report. -/
lemma exportsOfStatement_lowered (symbols : SymbolTable) (statement : Node) :
    statement.lowered.exportsOfStatement symbols
      = Exports.lowered <$> statement.exportsOfStatement symbols := by
  rw [exportsOfStatement, exportsOfStatement, isDefaultExport_lowered, defaultLabel_lowered,
    line_lowered, column_lowered, child?_lowered]
  split
  · rfl
  · cases statement.child? "declaration" with
    | some declaration => exact exportsOfDeclaration_lowered declaration _ _
    | none => exact congrArg Except.ok (exportsOfClauses_lowered symbols statement)

end Node

end ExportCover
