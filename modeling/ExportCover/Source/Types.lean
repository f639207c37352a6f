import ExportCover.Source.Rule

/-!
# Types

Types are read for their extent: nothing in them binds a name or imports a module.
-/

namespace ExportCover.Source

/-- The arguments of a generic type. -/
def typeArguments (rules : Rules) : Parser Unit := do
  typesOnly
  sign "<"
  let arguments ← separated rules.anyType (sign ",")
  guard !arguments.isEmpty
  sign ">"

/-- The type after a colon. -/
def typeAfterColon (rules : Rules) : Parser Unit := do
  typesOnly
  sign ":"
  let _ ← rules.anyType

/-- A parameter of a generic declaration. -/
def typeParameter (rules : Rules) : Parser Unit := do
  let _ ← repeated (oneOfWords ["const", "in", "out"] <* lookahead word)
  let _ ← identifier
  let _ ← optionally (keyword "extends" *> rules.anyType)
  let _ ← optionally (sign "=" *> rules.anyType)

/-- The parameters of a generic declaration. -/
def typeParameters (rules : Rules) : Parser Unit := do
  typesOnly
  let parameters ← bracketed "<" (typeParameter rules) ">"
  guard !parameters.isEmpty

/-- A name with the names of its members, and arguments. -/
def typeName (rules : Rules) : Parser Unit := do
  let first ← word
  guard !(["extends", "in", "instanceof", "export", "import", "const", "let", "var"].contains first)
  let _ ← repeated (sign "." *> word)
  let _ ← optionally (typeArguments rules)

/-- The type of what a module exports. -/
def importType (rules : Rules) : Parser Unit := do
  keyword "import"
  let _ ← groupAfterBlanks
  let _ ← repeated (sign "." *> word)
  let _ ← optionally (typeArguments rules)
where
  /-- The brackets with the name of the module. -/
  groupAfterBlanks : Parser Node := skipTrivia *> groupOf rules "(" ")"

/-- A parameter of a function type. Its default is no part of a type. -/
def typedParameter (rules : Rules) : Parser Unit := do
  let _ ← optionally (sign "...")
  let _ ← rules .pattern
  let _ ← optionally (sign "?")
  let _ ← optionally (typeAfterColon rules)

/-- A type of functions. -/
def functionType (rules : Rules) : Parser Unit := do
  let _ ← optionally (keyword "abstract")
  let _ ← optionally (keyword "new")
  let _ ← optionally (typeParameters rules)
  let _ ← bracketed "(" (typedParameter rules) ")"
  arrow
  let _ ← rules.anyType

/-- The type without the operators before and after it. -/
def primaryType (rules : Rules) : Parser Unit :=
  functionType rules
    <|> (do sign "("; let _ ← rules.anyType; sign ")")
    <|> (do skipTrivia; let _ ← groupOf rules "[" "]")
    <|> (do skipTrivia; let _ ← groupOf rules "\x7b" "\x7d")
    <|> (do let _ ← stringLiteral)
    <|> (do let _ ← template rules)
    <|> (do let _ ← optionally (sign "-"); let _ ← number)
    <|> importType rules
    <|> typeName rules

/-- A word before a type that changes it. -/
def typeOperator : Parser Unit := do
  let _ ← oneOfWords ["keyof", "unique", "readonly", "typeof", "asserts"]
  sameLine
  notFollowedBy endOfText
  notFollowedBy (oneOfSigns [",", ";", ")", "]", "\x7d", ">", "=", "|", "&", "."])
  notFollowedBy (oneOfWords ["extends", "is"])

/-- A name for a part of the type that a choice looks at. A bound on it is no choice of its own. -/
def inferredType (rules : Rules) : Parser Unit := do
  keyword "infer"
  let _ ← identifier
  let _ ← optionally do
    sameLine
    keyword "extends"
    let _ ← rules (.type false)
    notFollowedBy (sign "?")

/-- A type with the operators before and after it. -/
def operandType (rules : Rules) : Parser Unit := do
  let _ ← repeated typeOperator
  inferredType rules <|> primaryType rules
  let _ ← repeated (sameLine *> skipTrivia *> groupOf rules "[" "]")
  let _ ← optionally (sameLine *> keyword "is" *> rules.anyType)

/-- A type. -/
def type (rules : Rules) (isConditional : Bool) : Parser Node :=
  nodeOver "type" do
    let _ ← optionally (oneOfSigns ["|", "&"])
    operandType rules
    let _ ← repeated (oneOfSigns ["|", "&"] *> operandType rules)
    if isConditional then
      let _ ← optionally do
        sameLine
        keyword "extends"
        let _ ← rules (.type false)
        sign "?"
        let _ ← rules.anyType
        sign ":"
        rules.anyType
    return []

end ExportCover.Source
