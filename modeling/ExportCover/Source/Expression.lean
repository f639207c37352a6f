import ExportCover.Source.Callable
import ExportCover.Source.Markup

/-!
# Expressions

Operators are read as a flat list: what matters later is whether an expression is nothing but an
arrow function, up to parentheses. The body of an arrow function reaches as far as it can; after a
body in braces an operator applies to the function, which makes it a part of a larger expression.
-/

namespace ExportCover.Source

/-- One property of an object. -/
def property (rules : Rules) : Parser (List Node) :=
  (do sign "..."; return [← rules.single])
    <|> (do
      let name ← propertyName rules
      sign ":"
      return [name, ← rules.single])
    <|> (do
      memberModifiers rules
      let _ ← propertyName rules
      methodBody rules)
    <|> (do
      let name ← identifier
      return name :: (← optionally (defaultValue rules)).toList)

/-- An object. -/
def object (rules : Rules) : Parser Node :=
  nodeOver "object" (List.flatten <$> bracketed "\x7b" (property rules) "\x7d")

/-- One item of an array or one argument; an item may be left out. -/
def item (rules : Rules) : Parser (List Node) :=
  (do
    let _ ← optionally (sign "...")
    return [← rules.single])
    <|> (do let _ ← lookahead (sign ","); return [])

/-- An array. -/
def array (rules : Rules) : Parser Node :=
  nodeOver "array" (List.flatten <$> bracketed "[" (item rules) "]")

/-- The arguments of a call. -/
def arguments (rules : Rules) : Parser (List Node) :=
  List.flatten <$> bracketed "(" (item rules) ")"

/-- What an arrow function takes. -/
def arrowParameters (rules : Rules) (mode : ExpressionMode) : Parser (List Node) :=
  (do
    let name ← identifier
    let _ ← lookahead arrow
    return [name])
    <|> (do
      let _ ← optionally (typeParameters rules)
      let bound ← parameters rules
      if !mode.noResultType then
        let _ ← optionally (typeAfterColon rules)
      return [bound])

/-- An arrow function. -/
def arrowFunction (rules : Rules) (mode : ExpressionMode) : Parser Node :=
  nodeOver "arrow_function" do
    let taken ← (keyword "async" *> sameLine *> arrowParameters rules mode <* lookahead arrow)
      <|> arrowParameters rules mode
    arrow
    let body ← block rules <|> rules (.expression { mode with sequence := false })
    return taken ++ [{ body with field := some "body" }]

/-- An expression in parentheses. -/
def parenthesized (rules : Rules) : Parser Node :=
  nodeOver "parenthesized_expression" do
    sign "("
    let inner ← rules.full
    sign ")"
    return [inner]

/-- A call that loads a module, or what is known about this one. -/
def importExpression : Parser Node :=
  nodeOver "import" do
    keyword "import"
    let _ ← lookahead (oneOfSigns ["(", "."])
    return []

/-- What a call of a constructor knows about itself. -/
def newTarget : Parser Node :=
  nodeOver "meta_property" do
    keyword "new"
    sign "."
    keyword "target"
    return []

/-- An expression that starts with a word. -/
def wordExpression (rules : Rules) (mode : ExpressionMode) : Parser Node :=
  arrowFunction rules mode <|> functionExpression rules <|> classExpression rules <|> newTarget
    <|> importExpression <|> identifier

/-- An expression without operators. -/
def primary (rules : Rules) (mode : ExpressionMode) : Parser Node := do
  skipTrivia
  match headChar? (← get) with
  | none => failure
  | some c =>
    if c == '(' then arrowFunction rules mode <|> parenthesized rules
    else if c == '[' then array rules
    else if c == '\x7b' then object rules
    else if c == '\x22' || c == '\x27' then stringLiteral
    else if c == '\x60' then template rules
    else if c == '/' then regex
    else if c == '<' then
      (typesOnly *> arrowFunction rules mode)
        <|> (do guard (← read).hasMarkup; rules .element)
    else if c == '@' then classExpression rules
    else if c == '#' then privateName
    else if c.isDigit || c == '.' then number
    else wordExpression rules mode

/-- What can stand after the arguments of a generic call or value. -/
def afterTypeArguments : Parser Unit :=
  (do guard (← newlineAhead))
    <|> endOfText
    <|> (do
      let _ ← oneOfSigns ["(", "\x60", ")", "]", ",", ";", ":", ".", "?", "\x7d", "\x7b", "=", "!", "&",
        "|", "^", "*", "%"])

/-- A member of a value. -/
def memberName : Parser (List Node) :=
  (do return [← propertyIdentifier]) <|> (do return [← skipTrivia *> privateName])

/-- An index in brackets. -/
def index (rules : Rules) : Parser (List Node) := do
  sign "["
  let inner ← rules.full
  sign "]"
  return [inner]

/-- The question mark and the point of an access that may find nothing. -/
def optionalPoint : Parser Unit := do
  sign "?."
  guard !((headChar? (← get)).any Char.isDigit)

/-- What can follow a value: a member, an index, a call or an operator behind it. -/
def suffix (rules : Rules) : Parser (List Node) :=
  (do
    optionalPoint
    index rules <|> (do let _ ← optionally (typeArguments rules); arguments rules)
      <|> (do return [← template rules]) <|> memberName)
    <|> (do sign "."; memberName)
    <|> index rules
    <|> arguments rules
    <|> (do return [← template rules])
    <|> (do sameLine; let _ ← oneOfSigns ["++", "--"]; return [])
    <|> (do
      typesOnly
      sameLine
      notFollowedBy (sign "!=")
      sign "!"
      return [])
    <|> (do typeArguments rules; lookahead afterTypeArguments; return [])

/-- Operators before a value. -/
def prefixed (rules : Rules) (mode : ExpressionMode) : Parser Node :=
  nodeOver "unary_expression" do
    (do
      let _ ← oneOfSigns ["++", "--", "!", "~", "+", "-"]
      return [← rules (.operand mode)])
      <|> (do
        let _ ← oneOfWords ["typeof", "void", "delete", "await"]
        return [← rules (.operand mode)])
      <|> (do
        keyword "new"
        notFollowedBy (sign ".")
        return [← rules (.operand mode)])
      <|> (do
        keyword "yield"
        let inner ← optionally do
          sameLine
          let _ ← optionally (sign "*")
          rules (.expression { mode with sequence := false })
        return inner.toList)

/-- A value under a type in angle brackets. -/
def typeAssertion (rules : Rules) (mode : ExpressionMode) : Parser Node :=
  nodeOver "type_assertion" do
    guard !(← read).hasMarkup
    sign "<"
    (keyword "const") <|> (do let _ ← rules.anyType)
    sign ">"
    return [← rules (.operand mode)]

/-- What stands between two operators. -/
def operand (rules : Rules) (mode : ExpressionMode) : Parser Node :=
  prefixed rules mode
    <|> chained "call_expression" (primary rules mode) (suffix rules)
    <|> typeAssertion rules mode

/-- The operators between two values, longer ones first. -/
def infixSigns : List String :=
  [">>>=", "===", "!==", "**=", "<<=", ">>=", ">>>", "&&=", "||=", "??=", "==", "!=", "<=", ">=", "&&",
    "||", "??", "**", "<<", ">>", "+=", "-=", "*=", "/=", "%=", "&=", "|=", "^=", "+", "-", "*", "/", "%",
    "&", "|", "^", "<", ">", "="]

/-- An operator between two values. -/
def infixOperator (mode : ExpressionMode) : Parser Unit :=
  (do notFollowedBy (oneOfSigns ["=>", "++", "--"]); let _ ← oneOfSigns infixSigns)
    <|> keyword "instanceof"
    <|> (do guard !mode.noIn; keyword "in")

/-- A choice between two values. -/
def choice (rules : Rules) (mode : ExpressionMode) : Parser (List Node) := do
  notFollowedBy optionalPoint
  sign "?"
  let inside := { mode with sequence := false, noIn := false }
  let first ← (rules (.expression { inside with noResultType := false }) <* lookahead (sign ":"))
    <|> rules (.expression { inside with noResultType := true })
  sign ":"
  let second ← rules (.expression { mode with sequence := false })
  return [first, second]

/-- A type that a value is said to have. -/
def ascription (rules : Rules) : Parser (List Node) := do
  typesOnly
  sameLine
  let _ ← oneOfWords ["as", "satisfies"]
  keyword "const" <|> (do let _ ← rules.anyType)
  return []

/-- What can follow a value with its operators behind it: another operator and its value. -/
def continuation (rules : Rules) (mode : ExpressionMode) : Parser (List Node) :=
  (do infixOperator mode; return [← operand rules mode])
    <|> choice rules mode
    <|> ascription rules

/-- An expression up to a comma. -/
def singleExpression (rules : Rules) (mode : ExpressionMode) : Parser Node :=
  chained "binary_expression" (operand rules mode) (continuation rules mode)

/-- An expression. -/
def expression (rules : Rules) (mode : ExpressionMode) : Parser Node :=
  if mode.sequence then
    chained "sequence_expression" (singleExpression rules mode) do
      sign ","
      return [← singleExpression rules mode]
  else singleExpression rules mode

end ExportCover.Source
