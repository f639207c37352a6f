import ExportCover.Source.Expression

/-!
# Statements and declarations

A declaration is what can be exported. All bodies are kept, because an import statement counts
wherever it stands.
-/

namespace ExportCover.Source

/-- Values with commas between them, at least one. -/
def listed {α : Type} (p : Parser α) : Parser (List α) := do
  let first ← p
  return first :: (← repeated (sign "," *> p))

/-- One variable of a declaration, with its initial value. -/
def declarator (rules : Rules) (mode : ExpressionMode) : Parser Node :=
  nodeOver "variable_declarator" do
    let name ← inField "name" (rules .pattern)
    if (← read).hasTypes then
      let _ ← optionally (sign "!")
    let _ ← optionally (typeAfterColon rules)
    let value ← optionally (sign "=" *> inField "value" (rules (.expression mode)))
    return name :: value.toList

/-- The word that declares variables. -/
def variableWord : Parser String :=
  oneOfWords ["var", "let", "const"]
    <|> (optionally (keyword "await" *> sameLine) *> keyword "using" *> sameLine *> return "using")

/-- The kind of a declaration of variables. -/
def variableKind (first : String) : String :=
  if first == "var" then "variable_declaration"
  else if first == "using" then "using_declaration"
  else "lexical_declaration"

/-- Variables, without the end of the statement. -/
def declarators (rules : Rules) (mode : ExpressionMode) : Parser (List Node) := do
  let _ ← variableWord
  listed (declarator rules mode)

/-- A declaration of variables. -/
def variableDeclaration (rules : Rules) : Parser Node := do
  let first ← lookahead variableWord
  nodeOver (variableKind first) do
    let items ← declarators rules .single
    terminator
    return items

/-- A type of objects with a name. -/
def interfaceDeclaration (rules : Rules) : Parser Node :=
  nodeOver "interface_declaration" do
    typesOnly
    keyword "interface"
    sameLine
    let name ← inField "name" identifier
    let _ ← optionally (typeParameters rules)
    let _ ← optionally (keyword "extends" *> listed rules.anyType)
    skipTrivia
    let _ ← groupOf rules "\x7b" "\x7d"
    return [name]

/-- A name for a type. -/
def typeAlias (rules : Rules) : Parser Node :=
  nodeOver "type_alias_declaration" do
    typesOnly
    keyword "type"
    sameLine
    let name ← inField "name" identifier
    let _ ← optionally (typeParameters rules)
    sign "="
    let _ ← rules.anyType
    terminator
    return [name]

/-- A type with named values. -/
def enumDeclaration (rules : Rules) : Parser Node :=
  nodeOver "enum_declaration" do
    typesOnly
    let _ ← optionally (keyword "const")
    keyword "enum"
    let name ← inField "name" identifier
    skipTrivia
    let _ ← groupOf rules "\x7b" "\x7d"
    return [name]

/-- A namespace with its statements. A module that is only announced has none. -/
def moduleDeclaration (rules : Rules) : Parser Node :=
  nodeOver "module" do
    typesOnly
    let _ ← oneOfWords ["namespace", "module"]
    sameLine
    let name ← inField "name" (stringLiteral <|> chained "nested_identifier" identifier (do
      sign "."
      return [← propertyIdentifier]))
    (do return [name, ← block rules])
      <|> (do guard (name.kind == "string"); terminator; return [name])

/-- A name for a member of a namespace or for a module. -/
def importAlias : Parser Node :=
  nodeOver "import_alias" do
    typesOnly
    keyword "import"
    (keyword "type" *> assignment) <|> assignment
    terminator
    return []
where
  /-- The name and what it stands for. -/
  assignment : Parser Unit := do
    let _ ← identifier
    sign "="
    let first ← word
    let _ ← repeated (sign "." *> word)
    if first == "require" then
      let _ ← optionally do
        sign "("
        let _ ← stringLiteral
        sign ")"

/-- What can be exported, without words about the export. -/
def plainDeclaration (rules : Rules) : Parser Node :=
  functionDeclaration rules <|> functionSignature rules <|> classDeclaration rules
    <|> variableDeclaration rules <|> interfaceDeclaration rules <|> typeAlias rules
    <|> enumDeclaration rules <|> moduleDeclaration rules

/-- A declaration of something that is defined elsewhere. -/
def ambientDeclaration (rules : Rules) : Parser Node :=
  nodeOver "ambient_declaration" do
    typesOnly
    keyword "declare"
    sameLine
    (do return [← plainDeclaration rules])
      <|> (do keyword "global"; return [← block rules])

/-- What can be exported. -/
def declaration (rules : Rules) : Parser Node :=
  plainDeclaration rules <|> ambientDeclaration rules

/-- An expression in the parentheses of a statement's head. -/
def condition (rules : Rules) : Parser Node := do
  sign "("
  let inner ← rules.full
  sign ")"
  return inner

/-- The head of a loop over values or keys. -/
def iterationHead (rules : Rules) (mode : ExpressionMode) : Parser (List Node) := do
  let bound ← (variableWord *> rules .pattern <* optionally (typeAfterColon rules))
    <|> rules (.operand mode)
  let _ ← oneOfWords ["of", "in"]
  return [bound, ← rules.full]

/-- The head of a loop with a start, a condition and a step. -/
def countingHead (rules : Rules) (mode : ExpressionMode) : Parser (List Node) := do
  let start ← declarators rules { mode with sequence := false }
    <|> Option.toList <$> optionally (rules (.expression mode))
  sign ";"
  let goOn ← optionally rules.full
  sign ";"
  let step ← optionally rules.full
  return start ++ goOn.toList ++ step.toList

/-- A statement about a part of the text, up to its end: its kind, its first word and the rest. -/
def worded (kind first : String) (rest : Parser (List Node)) : Parser Node :=
  nodeOver kind (keyword first *> rest)

/-- A loop. -/
def forStatement (rules : Rules) : Parser Node :=
  worded "for_statement" "for" do
    let _ ← optionally (keyword "await")
    sign "("
    let mode := { ExpressionMode.full with noIn := true }
    let head ← iterationHead rules mode <|> countingHead rules mode
    sign ")"
    return head ++ [← rules .statement]

/-- A choice between statements. -/
def ifStatement (rules : Rules) : Parser Node :=
  worded "if_statement" "if" do
    let test ← condition rules
    let first ← rules .statement
    let other ← optionally (keyword "else" *> rules .statement)
    return test :: first :: other.toList

/-- A loop that tests before its body, or a body under an object. -/
def guardedStatement (rules : Rules) (first : String) : Parser Node :=
  worded (first ++ "_statement") first do
    return [← condition rules, ← rules .statement]

/-- A loop that tests after its body. -/
def doStatement (rules : Rules) : Parser Node :=
  worded "do_statement" "do" do
    let body ← rules .statement
    keyword "while"
    let test ← condition rules
    let _ ← optionally (sign ";")
    return [body, test]

/-- One case of a `switch`. -/
def switchCase (rules : Rules) : Parser (List Node) := do
  let test ← (keyword "case" *> Option.some <$> rules.full) <|> (keyword "default" *> return none)
  sign ":"
  return test.toList ++ (← repeated (rules .statement))

/-- A choice by value. -/
def switchStatement (rules : Rules) : Parser Node :=
  worded "switch_statement" "switch" do
    let value ← condition rules
    sign "\x7b"
    let cases ← repeated (switchCase rules)
    sign "\x7d"
    return value :: cases.flatten

/-- A block with a handler for its failure. -/
def tryStatement (rules : Rules) : Parser Node :=
  worded "try_statement" "try" do
    let body ← block rules
    let handler ← optionally do
      keyword "catch"
      let _ ← optionally do
        sign "("
        let _ ← rules .pattern
        let _ ← optionally (typeAfterColon rules)
        sign ")"
      block rules
    let finalizer ← optionally (keyword "finally" *> block rules)
    return body :: handler.toList ++ finalizer.toList

/-- A statement that leaves a function, with a value on the same line. -/
def leavingStatement (rules : Rules) (first : String) : Parser Node :=
  worded (first ++ "_statement") first do
    let value ← optionally (sameLine *> rules.full)
    terminator
    return value.toList

/-- A statement that leaves a loop, with a label on the same line. -/
def jumpStatement (first : String) : Parser Node :=
  worded (first ++ "_statement") first do
    let _ ← optionally (sameLine *> identifier)
    terminator
    return []

/-- A statement with a name. -/
def labeledStatement (rules : Rules) : Parser Node :=
  nodeOver "labeled_statement" do
    let name ← identifier
    sign ":"
    return [name, ← rules .statement]

/-- An expression as a statement. What starts like a block, a function or a class is one. -/
def expressionStatement (rules : Rules) : Parser Node :=
  nodeOver "expression_statement" do
    notFollowedBy (sign "\x7b")
    notFollowedBy functionHead
    notFollowedBy (keyword "class")
    let inner ← rules.full
    terminator
    return [inner]

/-- A statement of nothing. -/
def emptyStatement : Parser Node :=
  nodeOver "empty_statement" do
    sign ";"
    return []

/-- A statement that is neither an import nor an export. -/
def plainStatement (rules : Rules) : Parser Node := do
  let first := (← optionally (lookahead word)).getD ""
  match first with
  | "if" => ifStatement rules
  | "for" => forStatement rules
  | "while" => guardedStatement rules "while"
  | "with" => guardedStatement rules "with"
  | "do" => doStatement rules
  | "switch" => switchStatement rules
  | "try" => tryStatement rules
  | "return" => leavingStatement rules "return"
  | "throw" => leavingStatement rules "throw"
  | "break" => jumpStatement "break"
  | "continue" => jumpStatement "continue"
  | "debugger" => jumpStatement "debugger"
  | _ =>
    block rules <|> emptyStatement <|> declaration rules <|> labeledStatement rules
      <|> expressionStatement rules

end ExportCover.Source
