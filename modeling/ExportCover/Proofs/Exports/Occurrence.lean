import ExportCover.Proofs.Exports.Counting

/-!
# How often a function is exported

An export statement exports functions of one kind: the function of a declaration, the arrow function
of a variable, or what the items of an export list name. `Node.occurrences` counts the declarations
and items that export a function under a name and at a place, for each kind apart. The functions
that are collected of a program are these, each as often as it occurs (`Node.count_exports`).
-/

namespace ExportCover.Node

/-- The kind of the functions that an export statement exports. -/
def exportKind (statement : Node) : DeclarationKind :=
  match statement.child? "declaration" with
  | some declaration =>
    if declaration.isFunctionDeclaration then .namedFunction else .arrowBinding
  | none => .reExported

/-- The number of declarations and items of export lists that export a function under its name, at
its place and with its kind, statements with a marker above them left out. -/
def occurrences (program : Node) (marker : String) (function : ExportedFunction) : Nat :=
  ((program.placedExports.filter (isUnmarked marker)).map fun placed =>
    if placed.2.line = function.line ∧ placed.2.column = function.column
        ∧ placed.2.exportKind = function.kind then
      program.functionExports placed.2 function.name
    else 0).sum

/-- What a declaration exports is of the kind of that declaration. -/
lemma kind_of_mem_declaration {declaration : Node} {line column : Nat} {exports : Exports}
    (extracted : declaration.exportsOfDeclaration line column = .ok exports) :
    ∀ function ∈ exports.functions, function.kind
      = if declaration.isFunctionDeclaration then .namedFunction else .arrowBinding := by
  intro function mem
  cases declaration.form with
  | function isFunction =>
    rw [exportsOfDeclaration_function isFunction] at extracted
    cases extracted
    obtain ⟨name, _, rfl⟩ := Option.map_eq_some_iff.mp (Option.mem_toList.mp mem)
    rw [if_pos isFunction]
  | single noFunction isVariable declarator name alone named =>
    rw [exportsOfDeclaration_single noFunction isVariable alone named] at extracted
    cases extracted
    split at mem
    · rw [List.mem_singleton.mp mem, noFunction]
      rfl
    · cases mem
  | compound noFunction isVariable notSingle =>
    rw [exportsOfDeclaration_compound noFunction isVariable notSingle] at extracted
    obtain ⟨unchecked, _, rfl⟩ := Outcome.map_eq_ok.mp extracted
    cases mem
  | other noFunction noVariable =>
    rw [exportsOfDeclaration_other noFunction noVariable] at extracted
    cases extracted
    cases mem

/-- What a specifier exports is a re-export. -/
lemma kind_of_mem_specifier {symbols : SymbolTable} {line column : Nat} {specifier : Node} :
    ∀ function ∈ (exportsOfSpecifier symbols line column specifier).functions,
      function.kind = .reExported := by
  rw [exportsOfSpecifier]
  cases specifier.child? "name" with
  | none => simp [Exports.none]
  | some localName =>
    dsimp only
    split
    · simp
    split
    · simp
    · simp [Exports.none]

/-- What export lists export are re-exports. -/
lemma kind_of_mem_clauses {statement : Node} {symbols : SymbolTable} :
    ∀ function ∈ (statement.exportsOfClauses symbols).functions, function.kind = .reExported := by
  rw [exportsOfClauses_eq]
  split
  · simp [Exports.none]
  · intro function mem
    obtain ⟨part, listed, mem⟩ := List.mem_flatMap.mp mem
    obtain ⟨specifier, _, rfl⟩ := List.mem_map.mp listed
    exact kind_of_mem_specifier function mem

/-- All functions that a statement exports are of its kind. -/
lemma kind_of_mem {statement : Node} {symbols : SymbolTable} {exports : Exports}
    (extracted : statement.exportsOfStatement symbols = .ok exports) :
    ∀ function ∈ exports.functions, function.kind = statement.exportKind := by
  rw [exportsOfStatement] at extracted
  split at extracted
  · cases extracted
    simp
  · rw [exportKind]
    cases declared : statement.child? "declaration" with
    | some declaration =>
      rw [declared] at extracted
      exact kind_of_mem_declaration extracted
    | none =>
      rw [declared] at extracted
      cases extracted
      exact kind_of_mem_clauses

/-- A function is offered by a statement as often as it is counted there, and by no statement of
another place or kind. -/
lemma count_statement {program statement : Node} {exports : Exports}
    (extracted : statement.exportsOfStatement program.symbolTable = .ok exports)
    (function : ExportedFunction) :
    exports.functions.count function
      = if statement.line = function.line ∧ statement.column = function.column
          ∧ statement.exportKind = function.kind then
          program.functionExports statement function.name
        else 0 := by
  have offers := offers_statement extracted
  split
  next here =>
    rw [← offers.counted, List.count]
    refine List.countP_congr fun other mem => ?_
    obtain ⟨line, column⟩ := offers.placed other mem
    have kind := kind_of_mem extracted other mem
    rw [beq_iff_eq, beq_iff_eq]
    constructor
    · rintro rfl
      rfl
    · intro name
      obtain ⟨_, _, _, _⟩ := other
      obtain ⟨_, _, _, _⟩ := function
      simp_all
  next elsewhere =>
    refine List.count_eq_zero.mpr fun mem => elsewhere ?_
    obtain ⟨line, column⟩ := offers.placed function mem
    exact ⟨line.symm, column.symm, (kind_of_mem extracted function mem).symm⟩

/-- The functions that are collected of a program are there as often as they occur in it. -/
theorem count_exports {program : Node} {marker : String} {exports : Exports}
    (extracted : program.exports marker = .ok exports) (function : ExportedFunction) :
    exports.functions.count function = program.occurrences marker function := by
  obtain ⟨each, rfl⟩ := exports_eq_join extracted
  rw [Exports.join, List.count_flatMap, List.map_map, occurrences]
  refine congrArg List.sum (List.map_congr_left fun placed mem => ?_)
  exact count_statement (each placed mem) function

end ExportCover.Node
