import ExportCover.Path.Specifier
import ExportCover.Tree.Node

/-!
# Imports of test files

What the import statements of a file bring in. Only relative specifiers are kept: a bare one names
an installed package and never a module under test. Default and namespace bindings are kept for
reports; coverage looks at the individually named bindings alone.
-/

namespace ExportCover

/-- What one import statement binds. -/
structure ImportedNames where
  names : List String
  defaultName : Option String
  namespaceName : Option String
deriving DecidableEq, Repr

/-- A relative import of a file. -/
structure ImportFact where
  specifier : String
  bound : ImportedNames
deriving DecidableEq, Repr

namespace ImportedNames

/-- Nothing is bound. -/
def none : ImportedNames := ⟨[], .none, .none⟩

/-- Adds what one part of an import clause binds: a default name, a namespace or a list. -/
def addPart (bound : ImportedNames) (part : Node) : ImportedNames :=
  if part.kind == "identifier" then { bound with defaultName := some part.text }
  else if part.kind == "namespace_import" then
    { bound with namespaceName := ((part.childrenOf "identifier").head?).map (·.text) }
  else if part.kind == "named_imports" then
    let added := (part.childrenOf "import_specifier").filterMap fun specifier =>
      (specifier.child? "name").map (·.spelledName)
    { bound with names := bound.names ++ added }
  else bound

/-- What an import statement binds. -/
def ofStatement (statement : Node) : ImportedNames :=
  ((statement.childrenOf "import_clause").flatMap (·.namedChildren)).foldl addPart none

/-- The named bindings without repetition, in the order of their characters. -/
def sortedNames (bound : ImportedNames) : List String :=
  bound.names.eraseDups.mergeSort fun a b => a ≤ b

end ImportedNames

namespace Node

/-- The pieces of an import statement's source: each run of characters between escapes. -/
def sourceFragments (statement : Node) : List Node :=
  (statement.children.filter fun child =>
    child.field == some "source" && child.kind == "string" && child.named).flatMap
      (·.childrenOf "string_fragment")

/-- Every piece of a source of an import statement below a node, with its statement, in the order
of the text. -/
def importSources (root : Node) : List (Node × Node) :=
  (root.preorder.filter fun node => node.kind == "import_statement" && node.named).flatMap
    fun statement => statement.sourceFragments.map fun fragment => (statement, fragment)

/-- The relative imports below a node, in the order of the text. -/
def importFacts (root : Node) : List ImportFact :=
  root.importSources.filterMap fun (statement, fragment) =>
    if Specifier.isDependency fragment.text then none
    else some ⟨fragment.text, ImportedNames.ofStatement statement⟩

end Node

end ExportCover
