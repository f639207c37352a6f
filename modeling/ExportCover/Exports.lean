import ExportCover.Fault
import ExportCover.Tree.Node

/-!
# Exported functions

Which exported bindings of a module are functions. Three shapes are recognised at the top level of
a module: an exported function declaration, an exported declaration of exactly one variable bound
to an arrow function, and an export list whose local names are bound to functions. Default exports,
exports of patterns and declarations of several arrow functions are collected as unchecked.
-/

namespace ExportCover

/-- What a top-level name is bound to. -/
inductive BindingKind where
  | function
  | arrowFunction
  | plainValue
deriving DecidableEq, Repr

namespace BindingKind

/-- The name of a kind in reports. -/
def name : BindingKind → String
  | .function => "function"
  | .arrowFunction => "arrow_function"
  | .plainValue => "variable"

/-- The kind with a name. -/
def ofName (text : String) : Except Fault BindingKind :=
  match [function, arrowFunction, plainValue].find? (·.name == text) with
  | some kind => .ok kind
  | none => .error (.notMember "BindingKind" text)

/-- The binding can be called. -/
def isCallable : BindingKind → Bool
  | .plainValue => false
  | _ => true

end BindingKind

/-- How an exported function was declared. -/
inductive DeclarationKind where
  | namedFunction
  | arrowBinding
  | reExported
deriving DecidableEq, Repr

namespace DeclarationKind

/-- The name of a kind in reports. -/
def name : DeclarationKind → String
  | .namedFunction => "named_function_declaration"
  | .arrowBinding => "named_arrow_const_binding"
  | .reExported => "re_exported_binding"

/-- The kind with a name. -/
def ofName (text : String) : Except Fault DeclarationKind :=
  match [namedFunction, arrowBinding, reExported].find? (·.name == text) with
  | some kind => .ok kind
  | none => .error (.notMember "DeclarationKind" text)

end DeclarationKind

/-- An exported function of a module, at the start of its export statement. -/
structure ExportedFunction where
  name : String
  kind : DeclarationKind
  line : Nat
  column : Nat
deriving DecidableEq, Repr

/-- An export that the check cannot verify. -/
structure UncheckedExport where
  label : String
  reason : String
  line : Nat
  column : Nat
deriving DecidableEq, Repr

/-- What export statements offer: functions that need a test and exports that are not checked. -/
structure Exports where
  functions : List ExportedFunction
  unchecked : List UncheckedExport
deriving DecidableEq, Repr

namespace Exports

/-- Nothing is exported. -/
def none : Exports := ⟨[], []⟩

/-- What two export statements offer together. -/
def append (a b : Exports) : Exports :=
  ⟨a.functions ++ b.functions, a.unchecked ++ b.unchecked⟩

/-- Exports of two parts stand one after the other. -/
instance : Append Exports := ⟨append⟩

end Exports

/-- What the top-level names of a module are bound to, in the order of their first binding. -/
abbrev SymbolTable := List (String × BindingKind)

namespace SymbolTable

/-- Binds a name: in its place if it is bound already, at the end otherwise. -/
def bind (name : String) (kind : BindingKind) : SymbolTable → SymbolTable
  | [] => [(name, kind)]
  | entry :: rest => if entry.1 == name then (name, kind) :: rest else entry :: bind name kind rest

/-- What a name is bound to. -/
def kind? (symbols : SymbolTable) (name : String) : Option BindingKind :=
  (symbols.find? (·.1 == name)).map (·.2)

end SymbolTable

namespace Node

/-- The node declares a function with a body. -/
def isFunctionDeclaration (node : Node) : Bool :=
  node.kind == "function_declaration" || node.kind == "generator_function_declaration"

/-- The node declares variables. -/
def isVariableDeclaration (node : Node) : Bool :=
  node.kind == "lexical_declaration" || node.kind == "variable_declaration"

/-- The node is a pattern that takes a value apart. -/
def isPattern (node : Node) : Bool :=
  node.kind == "object_pattern" || node.kind == "array_pattern"

/-- The node is an export statement. -/
def isExport (node : Node) : Bool :=
  node.kind == "export_statement"

/-- The declarators of a variable declaration. -/
def declarators (node : Node) : List Node :=
  node.childrenOf "variable_declarator"

/-- The initialiser of a declarator is an arrow function, up to parentheses. -/
def bindsArrow (declarator : Node) : Bool :=
  match (declarator.child? "value").bind unwrap with
  | some value => value.kind == "arrow_function"
  | none => false

/-- What a declarator binds its name to. -/
def boundKind (declarator : Node) : BindingKind :=
  if declarator.bindsArrow then .arrowFunction else .plainValue

/-- The name that a node has if it stands under the field `name` and is an identifier. -/
def identifier? (node : Node) : Option Node :=
  (node.child? "name").filter (·.kind == "identifier")

/-- The bindings of a declaration, in order. Patterns bind nothing here. -/
def bindings (declaration : Node) : List (String × BindingKind) :=
  if declaration.isFunctionDeclaration then
    ((declaration.child? "name").map fun name => (name.text, BindingKind.function)).toList
  else if declaration.isVariableDeclaration then
    declaration.declarators.filterMap fun declarator =>
      declarator.identifier?.map fun name => (name.text, declarator.boundKind)
  else []

/-- The declaration that a top-level statement holds: its own, or the one that it exports. -/
def declaration? (statement : Node) : Option Node :=
  if statement.isExport then statement.child? "declaration" else some statement

/-- What the top-level names of a program are bound to; the last binding of a name counts. -/
def symbolTable (program : Node) : SymbolTable :=
  (program.namedChildren.filterMap declaration?).foldl
    (fun symbols declaration =>
      declaration.bindings.foldl (fun symbols (name, kind) => symbols.bind name kind) symbols) []

/-- The export statement has the token `default`. -/
def isDefaultExport (statement : Node) : Bool :=
  statement.children.any (·.kind == "default")

/-- The comment that stands right above a statement. `preceding` are the siblings before the
statement, the nearest first. The comment ends on the row of the statement or on the row above, and
it starts on a row on which the sibling before it does not end. -/
def commentAbove? (preceding : List Node) (statement : Node) : Option Node :=
  match preceding.dropWhile (!·.named) with
  | [] => none
  | comment :: earlier =>
    if comment.kind == "comment"
        && statement.start.row ≤ comment.stop.row + 1
        && earlier.head?.all (fun before => before.stop.row < comment.start.row) then
      some comment
    else none

/-- A comment with the marker stands right above the statement, which exempts it from the check. An
empty marker exempts nothing. -/
def isMarked (marker : String) (preceding : List Node) (statement : Node) : Bool :=
  marker != ""
    && (commentAbove? preceding statement).any fun comment => Text.contains comment.text marker

/-- What an exported declaration offers. -/
def exportsOfDeclaration (declaration : Node) (line column : Nat) : Except Fault Exports :=
  if declaration.isFunctionDeclaration then
    .ok ⟨((declaration.child? "name").map fun name =>
      ⟨name.text, .namedFunction, line, column⟩).toList, []⟩
  else if declaration.isVariableDeclaration then
    let declarators := declaration.declarators
    match declarators, declarators.map identifier? with
    | [declarator], [some name] =>
      .ok ⟨if declarator.bindsArrow then [⟨name.text, .arrowBinding, line, column⟩] else [], []⟩
    | _, _ => do
      let unchecked ← declarators.filterMapM fun declarator =>
        match declarator.child? "name" with
        | some target =>
          if target.isPattern then
            .ok (some ⟨target.text, "destructured export", line, column⟩)
          else if declarators.length > 1 && declarator.bindsArrow then
            .ok (some ⟨target.text, "multi-declarator export", line, column⟩)
          else .ok Option.none
        | Option.none =>
          if declarators.length > 1 && declarator.bindsArrow then .error .namelessDeclarator
          else .ok Option.none
      return ⟨[], unchecked⟩
  else .ok Exports.none

/-- What one item of an export list offers. -/
def exportsOfSpecifier (symbols : SymbolTable) (line column : Nat) (specifier : Node) : Exports :=
  match specifier.child? "name" with
  | Option.none => Exports.none
  | some localName =>
    let exported := ((specifier.child? "alias").getD localName).spelledName
    if exported == "default" then ⟨[], [⟨localName.spelledName, "default export", line, column⟩]⟩
    else if exported != "" && (symbols.kind? localName.spelledName).any (·.isCallable) then
      ⟨[⟨exported, .reExported, line, column⟩], []⟩
    else Exports.none

/-- What the export lists of a statement offer. A list with a source binds nothing here. -/
def exportsOfClauses (statement : Node) (symbols : SymbolTable) : Exports :=
  if (statement.child? "source").isSome then Exports.none
  else
    ((statement.childrenOf "export_clause").flatMap (·.childrenOf "export_specifier")).foldl
      (fun exports specifier =>
        exports ++ exportsOfSpecifier symbols statement.line statement.column specifier)
      Exports.none

/-- The name under which a default export is reported. -/
def defaultLabel (statement : Node) : String :=
  let target := (statement.child? "declaration").or (statement.child? "value")
  ((target.bind (·.child? "name")).map (·.text)).getD "default"

/-- What one export statement offers. -/
def exportsOfStatement (statement : Node) (symbols : SymbolTable) : Except Fault Exports :=
  if statement.isDefaultExport then
    .ok ⟨[], [⟨statement.defaultLabel, "default export", statement.line, statement.column⟩]⟩
  else
    match statement.child? "declaration" with
    | some declaration => declaration.exportsOfDeclaration statement.line statement.column
    | Option.none => .ok (statement.exportsOfClauses symbols)

/-- The export statements of a program, each with the siblings before it, the nearest first. -/
def placedExports (program : Node) : List (List Node × Node) :=
  program.placedChildren.filter (·.2.isExport)

/-- What the export statements of a program offer, those with a marker above them left out. -/
def exports (program : Node) (marker : String) : Except Fault Exports :=
  let symbols := program.symbolTable
  (program.placedExports.filter fun (preceding, statement) =>
      !statement.isMarked marker preceding).foldlM
    (fun found placed => do return found ++ (← placed.2.exportsOfStatement symbols)) Exports.none

end Node

end ExportCover
