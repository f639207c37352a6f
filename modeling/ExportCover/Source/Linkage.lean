import ExportCover.Source.Statement

/-!
# Import and export statements

The statements that link modules. In a list of names the words `type` and `typeof` are marks before
a name, or names themselves.
-/

namespace ExportCover.Source

/-- A name under which a module exports something: a word or a text. -/
def exportedName : Parser Node :=
  stringLiteral
    <|> nodeOver "identifier" do
      let _ ← word
      return []

/-- A name and the name that it gets. -/
def renamedItem : Parser (List Node) := do
  let name ← inField "name" exportedName
  let other ← optionally (keyword "as" *> inField "alias" exportedName)
  let _ ← lookahead (oneOfSigns [",", "\x7d"])
  return name :: other.toList

/-- One item of a list of names. -/
def specifier (kind : String) : Parser Node :=
  nodeOver kind (renamedItem <|> (typesOnly *> oneOfWords ["type", "typeof"] *> renamedItem))

/-- A list of names in braces. -/
def specifiers (kind itemKind : String) : Parser Node :=
  nodeOver kind (bracketed "\x7b" (specifier itemKind) "\x7d")

/-- What is demanded of a module beside its name. -/
def importAttributes (rules : Rules) : Parser (List Node) := do
  let found ← optionally do
    sameLine
    let _ ← oneOfWords ["with", "assert"]
    object rules
  return found.toList

/-- The text that names a module. -/
def moduleSource (rules : Rules) : Parser (List Node) := do
  let source ← inField "source" stringLiteral
  return source :: (← importAttributes rules)

/-- The word `from` and the text that names a module. -/
def fromModule (rules : Rules) : Parser (List Node) :=
  keyword "from" *> moduleSource rules

/-- Everything that a module exports, under one name. -/
def namespaceImport : Parser Node :=
  nodeOver "namespace_import" do
    sign "*"
    keyword "as"
    return [← identifier]

/-- What an import statement binds beside a default. -/
def importedNames : Parser Node :=
  namespaceImport <|> specifiers "named_imports" "import_specifier"

/-- What an import statement binds. -/
def importClause : Parser Node :=
  nodeOver "import_clause"
    ((do
      let name ← identifier
      return name :: (← optionally (sign "," *> importedNames)).toList)
      <|> (do return [← importedNames]))

/-- An import statement that names a module. -/
def importStatement (rules : Rules) : Parser Node :=
  nodeOver "import_statement" do
    keyword "import"
    let linked ← moduleSource rules <|> clauseFrom
      <|> (typesOnly *> oneOfWords ["type", "typeof"] *> clauseFrom)
    terminator
    return linked
where
  /-- What is bound, and the module that it comes from. -/
  clauseFrom : Parser (List Node) := do
    let clause ← importClause
    return clause :: (← fromModule rules)

/-- The word `default`, as a node. -/
def defaultToken : Parser Node := do
  let token ← nodeOver "default" (keyword "default" *> return [])
  return { token with named := false }

/-- The export of everything that another module exports. -/
def exportAll (rules : Rules) : Parser (List Node) := do
  let _ ← optionally (typesOnly *> keyword "type")
  sign "*"
  let name ← optionally (keyword "as" *> exportedName)
  let linked ← fromModule rules
  terminator
  return name.toList ++ linked

/-- The export of a list of names. The module that they come from stands on the same line. -/
def exportList (rules : Rules) : Parser (List Node) := do
  let _ ← optionally (typesOnly *> keyword "type")
  let clause ← specifiers "export_clause" "export_specifier"
  let linked ← optionally (sameLine *> fromModule rules)
  terminator
  return clause :: linked.getD []

/-- The export of a value or a declaration as the default. -/
def exportDefault (rules : Rules) : Parser (List Node) := do
  let token ← defaultToken
  let exported ← inField "declaration" (declaration rules)
    <|> (inField "value" rules.single <* terminator)
  return [token, exported]

/-- The export of one value in place of a module. -/
def exportAssignment (rules : Rules) : Parser (List Node) := do
  typesOnly
  sign "="
  let value ← rules.single
  terminator
  return [value]

/-- The export of a module as a global name. -/
def exportNamespace : Parser (List Node) := do
  typesOnly
  keyword "as"
  keyword "namespace"
  let name ← identifier
  terminator
  return [name]

/-- An export statement. It starts at the marks before it. -/
def exportStatement (rules : Rules) : Parser Node :=
  nodeOver "export_statement" do
    let marks ← repeated (decorator rules)
    keyword "export"
    let exported ← exportAll rules <|> exportList rules <|> exportDefault rules
      <|> exportAssignment rules <|> exportNamespace
      <|> (do return [← inField "declaration" (declaration rules)])
      <|> (do return [← importAlias])
    return marks ++ exported

/-- A statement. -/
def statement (rules : Rules) : Parser Node :=
  exportStatement rules <|> importStatement rules <|> importAlias <|> plainStatement rules

end ExportCover.Source
