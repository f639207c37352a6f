import ExportCover.Source.Pattern

/-!
# Functions and classes

Functions, methods and classes, as expressions and as declarations. A function declaration without
a body is a signature, which binds nothing.
-/

namespace ExportCover.Source

/-- Statements in braces. -/
def block (rules : Rules) : Parser Node :=
  nodeOver "statement_block" do
    sign "\x7b"
    let statements ← repeated (rules .statement)
    sign "\x7d"
    return statements

/-- What stands between the name of a function and its body. -/
def callSignature (rules : Rules) : Parser (List Node) := do
  let _ ← optionally (typeParameters rules)
  let bound ← parameters rules
  let _ ← optionally (typeAfterColon rules)
  return [bound]

/-- The words before the name of a function; true for a generator. -/
def functionHead : Parser Bool := do
  let _ ← optionally (keyword "async" <* sameLine)
  keyword "function"
  return (← optionally (sign "*")).isSome

/-- A function as an expression. -/
def functionExpression (rules : Rules) : Parser Node :=
  nodeOver "function_expression" do
    let _ ← functionHead
    let name ← optionally (inField "name" identifier)
    let signature ← callSignature rules
    let body ← inField "body" (block rules)
    return name.toList ++ signature ++ [body]

/-- A function with a name and a body. -/
def functionDeclaration (rules : Rules) : Parser Node := do
  let isGenerator ← lookahead functionHead
  nodeOver (if isGenerator then "generator_function_declaration" else "function_declaration") do
    let _ ← functionHead
    let name ← inField "name" identifier
    let signature ← callSignature rules
    let body ← inField "body" (block rules)
    return name :: signature ++ [body]

/-- A function with a name and no body. -/
def functionSignature (rules : Rules) : Parser Node :=
  nodeOver "function_signature" do
    typesOnly
    let _ ← functionHead
    let name ← inField "name" identifier
    let signature ← callSignature rules
    terminator
    return name :: signature

/-- Something that a name of a member can start with follows. -/
def memberFollows (rules : Rules) : Parser Unit :=
  lookahead ((do let _ ← propertyName rules) <|> sign "*")

/-- Words before the name of a member. -/
def memberModifiers (rules : Rules) : Parser Unit := do
  let _ ← repeated (
    oneOfWords ["public", "private", "protected", "static", "readonly", "abstract", "override",
      "declare", "accessor", "async", "get", "set"] <* memberFollows rules)
  let _ ← optionally (sign "*")

/-- The parameters and the body of a method. -/
def methodBody (rules : Rules) : Parser (List Node) := do
  let signature ← callSignature rules
  return signature ++ [← block rules]

/-- A member of a class that is a function, with or without a body, or a field. -/
def classMember (rules : Rules) : Parser (List Node) := do
  memberModifiers rules
  let _ ← propertyName rules
  if (← read).hasTypes then
    let _ ← optionally (oneOfSigns ["?", "!"])
  methodBody rules
    <|> (do typesOnly; let signature ← callSignature rules; terminator; return signature)
    <|> (do
      let _ ← optionally (typeAfterColon rules)
      let value ← optionally (defaultValue rules)
      terminator
      return value.toList)

/-- A signature of members whose names are not known. -/
def indexSignature (rules : Rules) : Parser (List Node) := do
  typesOnly
  let _ ← repeated (oneOfWords ["static", "readonly"])
  sign "["
  let _ ← word
  typeAfterColon rules
  sign "]"
  typeAfterColon rules
  terminator
  return []

/-- The members of a class. -/
def classBody (rules : Rules) : Parser Node :=
  nodeOver "class_body" do
    sign "\x7b"
    let members ← repeated (
      (do sign ";"; return [])
        <|> (do
          let marks ← repeated (decorator rules)
          let member ← (do keyword "static"; return [← block rules])
            <|> indexSignature rules <|> classMember rules
          return marks ++ member))
    sign "\x7d"
    return members.flatten

/-- What a class extends and implements. -/
def classHeritage (rules : Rules) : Parser (List Node) := do
  let base ← optionally (keyword "extends" *> rules (.operand .single) <*
    optionally (typeArguments rules))
  let _ ← optionally do
    typesOnly
    keyword "implements"
    separated rules.anyType (sign ",")
  return base.toList

/-- The head of a class up to its name. -/
def classHead (rules : Rules) : Parser (List Node) := do
  let marks ← repeated (decorator rules)
  let _ ← optionally (typesOnly *> keyword "abstract" <* sameLine)
  keyword "class"
  return marks

/-- What follows the name of a class. -/
def classRest (rules : Rules) : Parser (List Node) := do
  let _ ← optionally (typeParameters rules)
  let base ← classHeritage rules
  return base ++ [← classBody rules]

/-- A class as an expression. -/
def classExpression (rules : Rules) : Parser Node :=
  nodeOver "class" do
    let marks ← classHead rules
    let name ← optionally (inField "name" identifier)
    return marks ++ name.toList ++ (← classRest rules)

/-- A class with a name. -/
def classDeclaration (rules : Rules) : Parser Node :=
  nodeOver "class_declaration" do
    let marks ← classHead rules
    let name ← inField "name" identifier
    return marks ++ name :: (← classRest rules)

end ExportCover.Source
