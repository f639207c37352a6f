import ExportCover.Proofs.Exports.Declarations
import ExportCover.Proofs.Exports.Position

/-!
# When exports cannot be told

Trees may be malformed: fields may be missing, parentheses may be empty and kinds may be anything.
The exports of a program can be told all the same, with one exception. If an exported declaration
has several variables, then a variable without a name that holds an arrow function is a fault, and
there is no other one (`Node.exports_fails_iff`). The symbol table can always be told: wherever a
node is used that a look-up may not have found, the look-up is checked before
(`Node.readSymbols_eq_ok`).
-/

namespace ExportCover.Node

/-- The node that a look-up found, for a use that has a fault if it found none. -/
def required (missing : Fault) : Option Node → Except Fault Node
  | some node => .ok node
  | none => .error missing

/-- What a declarator binds its name to; the value is required once it is known to be there. -/
def readKind (missing : Fault) (declarator : Node) : Except Fault BindingKind := do
  let value := (declarator.child? "value").bind unwrap
  if value.isSome then
    if (← required missing value).kind == "arrow_function" then
      return .arrowFunction
  return .plainValue

/-- Binds the name of a declarator if it is an identifier. -/
def readDeclarator (missing : Fault) (symbols : SymbolTable) (declarator : Node) :
    Except Fault SymbolTable := do
  let name := declarator.child? "name"
  if name.isSome then
    if (← required missing name).kind == "identifier" then
      let kind ← readKind missing declarator
      return symbols.bind (← required missing name).text kind
  return symbols

/-- Binds the names of a declaration. -/
def readBindings (missing : Fault) (symbols : SymbolTable) (declaration : Node) :
    Except Fault SymbolTable := do
  if declaration.isFunctionDeclaration then
    let name := declaration.child? "name"
    if name.isSome then
      return symbols.bind (← required missing name).text .function
    return symbols
  if declaration.isVariableDeclaration then
    return (← declaration.declarators.foldlM (readDeclarator missing) symbols)
  return symbols

/-- Binds the names of the declaration that a top-level statement is or exports. -/
def readStatement (missing : Fault) (symbols : SymbolTable) (statement : Node) :
    Except Fault SymbolTable := do
  if statement.isExport then
    let declaration := statement.child? "declaration"
    if declaration.isSome then
      return (← readBindings missing symbols (← required missing declaration))
    return symbols
  readBindings missing symbols statement

/-- The symbol table of a program, in which every use of a node that a look-up may not have found
has a fault if it did not find one. -/
def readSymbols (missing : Fault) (program : Node) : Except Fault SymbolTable :=
  program.namedChildren.foldlM (readStatement missing) []

variable {missing : Fault}

/-- Reading the kind of a declarator look-up by look-up gives that kind. -/
lemma readKind_eq_ok (declarator : Node) :
    readKind missing declarator = .ok declarator.boundKind := by
  rw [readKind, boundKind, bindsArrow]
  cases (declarator.child? "value").bind unwrap with
  | none => rfl
  | some value =>
    by_cases isArrow : value.kind = "arrow_function"
    · simp [required, isArrow]
    · simp [required, isArrow]

/-- Reading a declarator look-up by look-up binds its identifier. -/
lemma readDeclarator_eq_ok (symbols : SymbolTable) (declarator : Node) :
    readDeclarator missing symbols declarator
      = .ok ((declarator.identifier?.map fun name => (name.text, declarator.boundKind)).toList.foldl
        (fun symbols (name, kind) => symbols.bind name kind) symbols) := by
  rw [readDeclarator, readKind_eq_ok, identifier?]
  cases declarator.child? "name" with
  | none => rfl
  | some name =>
    by_cases isIdentifier : name.kind = "identifier"
    · simp [required, isIdentifier, Option.filter]
    · simp [required, isIdentifier, Option.filter]

/-- Reading a declaration look-up by look-up adds its bindings. -/
lemma readBindings_eq_ok (symbols : SymbolTable) (declaration : Node) :
    readBindings missing symbols declaration = .ok (declaration.bindings.foldl
      (fun symbols (name, kind) => symbols.bind name kind) symbols) := by
  rw [readBindings, bindings]
  split
  · cases declaration.child? "name" with
    | none => rfl
    | some name => rfl
  split
  · exact Outcome.foldlM_eq_ok readDeclarator_eq_ok declaration.declarators symbols
  · rfl

/-- Reading a statement look-up by look-up adds the bindings of its declaration. -/
lemma readStatement_eq_ok (symbols : SymbolTable) (statement : Node) :
    readStatement missing symbols statement
      = .ok (statement.declaration?.toList.foldl (fun symbols declaration =>
        declaration.bindings.foldl (fun symbols (name, kind) => symbols.bind name kind) symbols)
        symbols) := by
  rw [readStatement, declaration?]
  split
  · cases statement.child? "declaration" with
    | none => rfl
    | some declaration => exact readBindings_eq_ok symbols declaration
  · exact readBindings_eq_ok symbols statement

/-- The symbol table of any tree can be told: no look-up is used that may have found nothing. -/
lemma readSymbols_eq_ok (missing : Fault) (program : Node) :
    program.readSymbols missing = .ok program.symbolTable :=
  Outcome.foldlM_eq_ok readStatement_eq_ok program.namedChildren []

/-- The exports of a program cannot be told if and only if an export statement that is neither
marked nor a default export declares several variables, one of which has no name and holds an arrow
function. The symbol table can always be told. -/
theorem exports_fails_iff (program : Node) (marker : String) (missing : Fault) :
    (∀ fault, program.exports marker = .error fault ↔
      fault = .namelessDeclarator ∧ ∃ placed ∈ program.placedExports,
        placed.2.isMarked marker placed.1 = false ∧ placed.2.isDefaultExport = false ∧
          ∃ declaration ∈ placed.2.child? "declaration", declaration.HasNamelessArrow) ∧
      program.readSymbols missing = .ok program.symbolTable := by
  refine ⟨fun fault => ?_, readSymbols_eq_ok missing program⟩
  rw [exports_eq_mapM, Outcome.map_eq_error,
    Outcome.mapM_eq_error_iff fun _ _ _ => exportsOfStatement_eq_error_iff]
  simp [isUnmarked, and_assoc]

/-- An export of two variables without a name, one of which holds an arrow function. -/
def namelessPair : Node :=
  let at0 : Point := ⟨0, 0⟩
  let arrow : Node := ⟨"arrow_function", some "value", true, "", at0, at0, []⟩
  let declarator (children : List Node) : Node :=
    ⟨"variable_declarator", none, true, "", at0, at0, children⟩
  let declaration : Node := ⟨"lexical_declaration", some "declaration", true, "", at0, at0,
    [declarator [], declarator [arrow]]⟩
  ⟨"program", none, true, "", at0, at0,
    [⟨"export_statement", none, true, "", at0, at0, [declaration]⟩]⟩

example : namelessPair.exports "" = .error .namelessDeclarator := by decide +kernel

end ExportCover.Node
