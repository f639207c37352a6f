import ExportCover.Proofs.Exports.Statements
import ExportCover.Source.Program

/-!
# Exported declarations and export lists

A declaration of one name may be exported where it stands, or it may stand by itself with an export
list after it. The exported names are the same in the same order (`Node.exports_relisted`). For an
export the declaration itself is classified, for a list the symbol table is read. Both see a function
in the same declarations (`Node.DeclaresOnly.exists_bindings`), and the table holds for the name what
this declaration binds it to because no other declaration does.
-/

namespace ExportCover

/-- What exports amount to: the names of the functions in order, and what is not checked. -/
def Exports.offer (exports : Exports) : List String × List UncheckedExport :=
  (exports.functions.map (·.name), exports.unchecked)

/-- Parts that amount to the same do so among others. -/
lemma Exports.offer_join_between {part part' : Exports} (same : part.offer = part'.offer)
    (front back : List Exports) :
    (join (front ++ part :: back)).offer = (join (front ++ part' :: back)).offer := by
  obtain ⟨names, unchecked⟩ := Prod.mk.inj same
  simp [offer, join, names, unchecked]

namespace Node

/-- The declaration is one of a function or a generator with this name, or one of exactly one
variable, which has this name. -/
def DeclaresOnly (declaration : Node) (name : String) : Prop :=
  declaration.DeclaresFunction name ∨
    declaration.isVariableDeclaration ∧ declaration.declarators.length = 1 ∧
      ∃ declarator ∈ declaration.declarators, declarator.Names name

/-- The statement exports a declaration, and not as the default. -/
structure ExportsDeclaration (statement declaration : Node) : Prop where
  named : statement.named
  isExport : statement.isExport
  noDefault : statement.isDefaultExport = false
  declared : statement.child? "declaration" = some declaration

/-- The statement is the declaration by itself, wherever it stands. -/
structure Restates (own declaration : Node) : Prop where
  named : own.named
  kind : own.kind = declaration.kind
  children : own.children = declaration.children

/-- The statement is an export list of this name only, under this name. -/
structure Lists (statement : Node) (name : String) : Prop where
  named : statement.named
  isExport : statement.isExport
  noDefault : statement.isDefaultExport = false
  undeclared : statement.child? "declaration" = none
  unsourced : statement.child? "source" = none
  single : statement.specifiers.length = 1
  item : ∀ specifier ∈ statement.specifiers, specifier.child? "alias" = none ∧
    ∃ localName ∈ specifier.child? "name", localName.spelledName = name

/-- No declaration at the top of these statements binds the name. -/
def Unbound (statements : List Node) (name : String) : Prop :=
  ∀ statement ∈ statements, statement.named →
    ∀ declaration ∈ statement.declaration?, ¬ declaration.Binds name

/-- Whether a statement lists a name can be computed. -/
instance (statement : Node) (name : String) : Decidable (statement.Lists name) :=
  decidable_of_iff (statement.named ∧ statement.isExport ∧ statement.isDefaultExport = false ∧
    statement.child? "declaration" = none ∧ statement.child? "source" = none ∧
    statement.specifiers.length = 1 ∧
    ∀ specifier ∈ statement.specifiers, specifier.child? "alias" = none ∧
      ∃ localName ∈ specifier.child? "name", localName.spelledName = name)
    ⟨fun ⟨named, isExport, noDefault, undeclared, unsourced, single, item⟩ =>
      ⟨named, isExport, noDefault, undeclared, unsourced, single, item⟩,
    fun lists => ⟨lists.named, lists.isExport, lists.noDefault, lists.undeclared, lists.unsourced,
      lists.single, lists.item⟩⟩

/-- Whether a declaration binds a name can be computed. -/
instance (declaration : Node) (name : String) : Decidable (declaration.Binds name) :=
  inferInstanceAs (Decidable (_ ∨ _ ∧ ∃ declarator ∈ declaration.declarators, _))

/-- Whether a declaration declares one name only can be computed. -/
instance (declaration : Node) (name : String) : Decidable (declaration.DeclaresOnly name) :=
  inferInstanceAs (Decidable (_ ∨ _ ∧ _ ∧ ∃ declarator ∈ declaration.declarators, _))

/-- Whether statements leave a name unbound can be computed. -/
instance (statements : List Node) (name : String) : Decidable (Unbound statements name) :=
  inferInstanceAs (Decidable (∀ statement ∈ statements, _ →
    ∀ declaration ∈ statement.declaration?, _))

variable {program relisted statement declaration own listed : Node} {before after : List Node}
  {name : String}

/-- What a declarator binds its name to can be called if it is an arrow function. -/
lemma isCallable_boundKind (declarator : Node) :
    declarator.boundKind.isCallable = declarator.bindsArrow := by
  rw [boundKind]
  cases declarator.bindsArrow with
  | true => rfl
  | false => rfl

/-- A declaration of one name is exported as a function if the symbol table takes it for one. -/
lemma DeclaresOnly.exists_bindings (declares : declaration.DeclaresOnly name) :
    ∃ bound declared, declaration.bindings = [(name, bound)] ∧
      ∀ line column, declaration.exportsOfDeclaration line column
        = .ok ⟨if bound.isCallable then [⟨name, declared, line, column⟩] else [], []⟩ := by
  obtain ⟨isFunction, target, found, rfl⟩ | ⟨isVariable, single, declarator, mem, named⟩ := declares
  · rw [Option.mem_def] at found
    refine ⟨.function, .namedFunction, ?_, fun line column => ?_⟩
    · rw [bindings, if_pos isFunction, found]
      rfl
    · rw [exportsOfDeclaration_function isFunction, found]
      rfl
  · have noFunction : declaration.isFunctionDeclaration = false := by
      rw [Bool.eq_false_iff]
      intro isFunction
      rw [isVariableDeclaration_eq_false isFunction] at isVariable
      cases isVariable
    obtain ⟨only, alone⟩ := List.length_eq_one_iff.mp single
    obtain rfl : declarator = only := by simpa [alone] using mem
    obtain ⟨target, found, isIdentifier, rfl⟩ := named
    have identifier := identifier?_eq_some_iff.mpr ⟨found, isIdentifier⟩
    refine ⟨declarator.boundKind, .arrowBinding, ?_, fun line column => ?_⟩
    · rw [bindings, if_neg (by simp [noFunction]), if_pos isVariable, alone]
      simp [identifier]
    · rw [exportsOfDeclaration_single noFunction isVariable alone identifier,
        isCallable_boundKind]

/-- A declaration of one name is no export statement. -/
lemma DeclaresOnly.isExport_eq_false (declares : declaration.DeclaresOnly name) :
    declaration.isExport = false := by
  obtain ⟨isFunction, _⟩ | ⟨isVariable, _⟩ := declares
  · simp only [isFunctionDeclaration, Bool.or_eq_true, beq_iff_eq] at isFunction
    obtain kind | kind := isFunction <;> simp [isExport, kind]
  · simp only [isVariableDeclaration, Bool.or_eq_true, beq_iff_eq] at isVariable
    obtain kind | kind := isVariable <;> simp [isExport, kind]

/-- A name that only one declaration binds is bound to what that declaration binds it to. -/
lemma kind?_symbolTable_of_unbound {bound : BindingKind}
    (split : program.children = before ++ statement :: after) (named : statement.named)
    (declared : statement.declaration? = some declaration)
    (bindings : declaration.bindings = [(name, bound)])
    (unbound : Unbound (before ++ after) name) :
    program.symbolTable.kind? name = some bound := by
  have skipped : ∀ statements, Unbound statements name →
      ((statements.filter (·.named)).filterMap declaration?).reverse.findSome? (declaredKind name)
        = none := by
    intro statements unbound
    simp only [List.findSome?_eq_none_iff, List.mem_reverse, List.mem_filterMap, List.mem_filter]
    rintro declaration ⟨statement, ⟨mem, named⟩, declared⟩
    have absent := unbound statement mem named declaration declared
    rwa [binds_iff, not_not] at absent
  have here : declaredKind name declaration = some bound := by
    rw [declaredKind, bindings]
    simp [kindIn]
  -- The last binding counts, so that what stands after the declaration is searched first.
  have front := skipped before fun other mem => unbound other (List.mem_append_left _ mem)
  have back := skipped after fun other mem => unbound other (List.mem_append_right _ mem)
  rw [kind?_symbolTable, namedChildren, split, List.filter_append, List.filter_cons_of_pos named,
    List.filterMap_append, List.filterMap_cons_some declared, List.reverse_append,
    List.reverse_cons, List.append_assoc, List.findSome?_append, back, List.findSome?_append]
  simp [here]

/-- An export list of one name offers the name as a function if it is bound to one. -/
lemma Lists.exportsOfStatement_eq (lists : listed.Lists name) (nonempty : name ≠ "")
    (noDefault : name ≠ "default") {symbols : SymbolTable} {bound : BindingKind}
    (found : symbols.kind? name = some bound) :
    listed.exportsOfStatement symbols
      = .ok ⟨if bound.isCallable then [⟨name, .reExported, listed.line, listed.column⟩] else [],
        []⟩ := by
  obtain ⟨specifier, alone⟩ := List.length_eq_one_iff.mp lists.single
  obtain ⟨unaliased, localName, spelled, rfl⟩ := lists.item specifier (by simp [alone])
  rw [exportsOfStatement, if_neg (by simp [lists.noDefault]), lists.undeclared]
  dsimp only
  rw [exportsOfClauses_eq, lists.unsourced, alone, List.map_singleton, exportsOfSpecifier,
    Option.mem_def.mp spelled, unaliased]
  cases callable : bound.isCallable with
  | true => simp [noDefault, nonempty, found, callable, Exports.join]
  | false => simp [noDefault, found, callable, Exports.join, Exports.none]

/-- The declaration that is exported is the one that binds names. -/
lemma ExportsDeclaration.declaration?_eq (exported : statement.ExportsDeclaration declaration) :
    statement.declaration? = some declaration := by
  rw [declaration?, if_pos exported.isExport, exported.declared]

/-- A statement that exports a declaration offers what the declaration does. -/
lemma ExportsDeclaration.exportsOfStatement_eq (exported : statement.ExportsDeclaration declaration)
    (symbols : SymbolTable) : statement.exportsOfStatement symbols
      = declaration.exportsOfDeclaration statement.line statement.column := by
  rw [exportsOfStatement, if_neg (by simp [exported.noDefault]), exported.declared]

/-- A restated declaration is an export statement only if the declaration is. -/
lemma Restates.isExport_eq (restates : own.Restates declaration) :
    own.isExport = declaration.isExport := by
  rw [isExport, isExport, restates.kind]

/-- A declaration binds by itself what it binds when it is exported. -/
lemma Restates.bindings_eq (restates : own.Restates declaration) :
    own.bindings = declaration.bindings := by
  have isFunction : own.isFunctionDeclaration = declaration.isFunctionDeclaration := by
    rw [isFunctionDeclaration, isFunctionDeclaration, restates.kind]
  have isVariable : own.isVariableDeclaration = declaration.isVariableDeclaration := by
    rw [isVariableDeclaration, isVariableDeclaration, restates.kind]
  have declarators : own.declarators = declaration.declarators := by
    rw [Node.declarators, Node.declarators, childrenOf, childrenOf, namedChildren, namedChildren,
      restates.children]
  have target : own.child? "name" = declaration.child? "name" := by
    rw [child?, child?, restates.children]
  rw [bindings, bindings, isFunction, isVariable, declarators, target]

/-- The declaration binds the same in both programs, and the list binds nothing. -/
lemma topBindings_relisted (split : program.children = before ++ statement :: after)
    (resplit : relisted.children = before ++ own :: listed :: after)
    (exported : statement.ExportsDeclaration declaration)
    (noExport : declaration.isExport = false) (restates : own.Restates declaration)
    (lists : listed.Lists name) : relisted.topBindings = program.topBindings := by
  have restated : own.declaration? = some own := by
    rw [declaration?, restates.isExport_eq, noExport]
    rfl
  have undeclared : listed.declaration? = none := by
    rw [declaration?, if_pos lists.isExport, lists.undeclared]
  rw [topBindings, topBindings, namedChildren, namedChildren, split, resplit, List.filter_append,
    List.filter_append, List.filter_cons_of_pos exported.named,
    List.filter_cons_of_pos restates.named, List.filter_cons_of_pos lists.named,
    List.filterMap_append, List.filterMap_append,
    List.filterMap_cons_some exported.declaration?_eq, List.filterMap_cons_some restated,
    List.filterMap_cons_none undeclared, List.flatMap_append, List.flatMap_append,
    List.flatMap_cons, List.flatMap_cons, restates.bindings_eq]

/-- The declaration by itself exports nothing, so that the list takes the place of the export. -/
lemma exportStatements_relisted (split : program.children = before ++ statement :: after)
    (resplit : relisted.children = before ++ own :: listed :: after)
    (exported : statement.ExportsDeclaration declaration)
    (noExport : declaration.isExport = false) (restates : own.Restates declaration)
    (lists : listed.Lists name) :
    ∃ front back, program.exportStatements = front ++ statement :: back ∧
      relisted.exportStatements = front ++ listed :: back := by
  have notOwn : own.isExport = false := restates.isExport_eq.trans noExport
  refine ⟨(before.filter (·.named)).filter (·.isExport),
    (after.filter (·.named)).filter (·.isExport), ?_, ?_⟩
  · rw [exportStatements, namedChildren, split, List.filter_append,
      List.filter_cons_of_pos exported.named, List.filter_append,
      List.filter_cons_of_pos exported.isExport]
  · rw [exportStatements, namedChildren, resplit, List.filter_append,
      List.filter_cons_of_pos restates.named, List.filter_cons_of_pos lists.named,
      List.filter_append, List.filter_cons_of_neg (by simp [notOwn]),
      List.filter_cons_of_pos lists.isExport]

/-- Statements that offer the same amount to the same among other statements. -/
lemma offer_mapM_between {outcome : Node → Except Fault Exports} {part part' : Exports}
    (here : outcome statement = .ok part) (there : outcome listed = .ok part')
    (same : part.offer = part'.offer) (front back : List Node) :
    (fun parts => (Exports.join parts).offer) <$> (front ++ statement :: back).mapM outcome
      = (fun parts => (Exports.join parts).offer) <$> (front ++ listed :: back).mapM outcome := by
  rw [List.mapM_append, List.mapM_append, List.mapM_cons, List.mapM_cons, here, there]
  cases front.mapM outcome with
  | error fault => rfl
  | ok fronts =>
    cases back.mapM outcome with
    | error fault => rfl
    | ok backs => exact congrArg Except.ok (Exports.offer_join_between same fronts backs)

/-- An exported declaration and an export list agree. A declaration of one name that is exported may
stand by itself and be followed by an export list of the name, if the name is neither empty nor
`default` and no other declaration binds it: the exported functions have the same names in the same
order, the same exports are not checked, and each other statement offers what it offered. -/
theorem exports_relisted (split : program.children = before ++ statement :: after)
    (resplit : relisted.children = before ++ own :: listed :: after)
    (exported : statement.ExportsDeclaration declaration) (declares : declaration.DeclaresOnly name)
    (restates : own.Restates declaration) (lists : listed.Lists name)
    (nonempty : name ≠ "") (noDefault : name ≠ "default")
    (unbound : Unbound (before ++ after) name) :
    Exports.offer <$> program.exports "" = Exports.offer <$> relisted.exports "" ∧
      ∀ other ∈ before ++ after, other.exportsOfStatement program.symbolTable
        = other.exportsOfStatement relisted.symbolTable := by
  have noExport := declares.isExport_eq_false
  obtain ⟨bound, declared, bindings, offered⟩ := declares.exists_bindings
  have alike : ∀ name, relisted.symbolTable.kind? name = program.symbolTable.kind? name := by
    intro name
    rw [kind?_symbolTable_eq, kind?_symbolTable_eq,
      topBindings_relisted split resplit exported noExport restates lists]
  refine ⟨?_, fun other _ => exportsOfStatement_congr (fun name => (alike name).symm) other⟩
  -- No other statement binds the name, so that it is bound to what the declaration gives it.
  have found : program.symbolTable.kind? name = some bound :=
    kind?_symbolTable_of_unbound split exported.named exported.declaration?_eq bindings unbound
  have here := (exported.exportsOfStatement_eq program.symbolTable).trans
    (offered statement.line statement.column)
  have there := lists.exportsOfStatement_eq nonempty noDefault found
  obtain ⟨front, back, statements, statements'⟩ :=
    exportStatements_relisted split resplit exported noExport restates lists
  have outcomes : (fun statement : Node => statement.exportsOfStatement relisted.symbolTable)
      = fun statement => statement.exportsOfStatement program.symbolTable :=
    funext (exportsOfStatement_congr alike)
  rw [exports_unmarked, exports_unmarked, outcomes, statements, statements', Functor.map_map,
    Functor.map_map]
  -- Between the same neighbours the declaration and the list offer the same.
  refine offer_mapM_between here there ?_ front back
  cases bound.isCallable with
  | true => rfl
  | false => rfl

/-- A program that exports an arrow function under another name before it declares it. -/
def renamedAhead : Node :=
  (Program.parse .typescript (Text.encode
    "export { f as g }\nexport const f = (/* one */ (() => 1))")).root

/-- The export list that is to take the place of the declaration. -/
def listOnly : Node :=
  (Program.parse .typescript (Text.encode "export { f }")).root

/-- The function is exported under both names still when it is declared by itself and listed. -/
theorem exports_relisted_renamed :
    ∃ before statement declaration own listed, renamedAhead.children = before ++ [statement] ∧
      statement.ExportsDeclaration declaration ∧ own.Restates declaration ∧ listed.Lists "f" ∧
      Exports.offer <$> Node.exports { renamedAhead with children := before ++ [own, listed] } ""
        = .ok (["g", "f"], []) := by
  have last : ∃ statement ∈ renamedAhead.children.getLast?,
      statement.named ∧ statement.isExport ∧ statement.isDefaultExport = false ∧
      (∃ declaration ∈ statement.child? "declaration", declaration.DeclaresOnly "f") ∧
      Unbound renamedAhead.children.dropLast "f" ∧
      Exports.offer <$> renamedAhead.exports "" = .ok (["g", "f"], []) := by decide +kernel
  have first : ∃ listed ∈ listOnly.children.head?, listed.Lists "f" := by decide +kernel
  generalize renamedAhead = program at *
  obtain ⟨statement, isLast, named, isExport, noDefault, ⟨declaration, declared, declares⟩, unbound,
    offered⟩ := last
  obtain ⟨listed, _, lists⟩ := first
  have exported : statement.ExportsDeclaration declaration :=
    ⟨named, isExport, noDefault, declared⟩
  have split := (List.dropLast_append_getLast? statement isLast).symm
  let own : Node := { declaration with field := none, named := true }
  have restates : own.Restates declaration := ⟨rfl, rfl, rfl⟩
  let relisted : Node := { program with children := program.children.dropLast ++ [own, listed] }
  have resplit : relisted.children = program.children.dropLast ++ [own, listed] := rfl
  obtain ⟨same, _⟩ := exports_relisted split resplit exported declares restates lists (by decide)
    (by decide) (by rwa [List.append_nil])
  exact ⟨_, statement, declaration, own, listed, split, exported, restates, lists,
    same.symm.trans offered⟩

end Node

end ExportCover
