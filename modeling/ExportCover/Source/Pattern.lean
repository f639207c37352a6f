import ExportCover.Source.Types

/-!
# Patterns and parameters

What a declaration or a parameter binds: a name, or a pattern that takes an object or an array
apart.
-/

namespace ExportCover.Source

/-- A name of a property: a word, a text, a number or an expression in brackets. -/
def propertyName (rules : Rules) : Parser Node :=
  propertyIdentifier <|> privateName <|> stringLiteral <|> number
    <|> nodeOver "computed_property_name" do
      sign "["
      let inner ← rules.full
      sign "]"
      return [inner]

/-- A value that is bound if there is none. -/
def defaultValue (rules : Rules) : Parser Node :=
  sign "=" *> rules.single

/-- One property of an object pattern. -/
def propertyPattern (rules : Rules) : Parser (List Node) :=
  (do sign "..."; return [← rules .pattern])
    <|> (do
      let name ← propertyName rules
      sign ":"
      let inner ← rules .pattern
      return name :: inner :: (← optionally (defaultValue rules)).toList)
    <|> (do
      let name ← identifier
      return name :: (← optionally (defaultValue rules)).toList)

/-- One item of an array pattern; it may be left out. -/
def itemPattern (rules : Rules) : Parser (List Node) :=
  (do
    let _ ← optionally (sign "...")
    let inner ← rules .pattern
    return inner :: (← optionally (defaultValue rules)).toList)
    <|> (do let _ ← lookahead (sign ","); return [])

/-- What a declaration binds. -/
def pattern (rules : Rules) : Parser Node :=
  identifier
    <|> nodeOver "object_pattern" (List.flatten <$> bracketed "\x7b" (propertyPattern rules) "\x7d")
    <|> nodeOver "array_pattern" (List.flatten <$> bracketed "[" (itemPattern rules) "]")

/-- A mark before a class, a member or a parameter. -/
def decorator (rules : Rules) : Parser Node :=
  nodeOver "decorator" do
    signHere "@"
    (do let _ ← skipTrivia *> groupOf rules "(" ")")
      <|> (do
        let _ ← word
        let _ ← repeated (sign "." *> (word <|> (privateName *> return "")))
        let _ ← optionally (typeArguments rules)
        let _ ← repeated (skipTrivia *> groupOf rules "(" ")"))
    return []

/-- A parameter of a function. -/
def parameter (rules : Rules) : Parser (List Node) := do
  let _ ← repeated (decorator rules)
  let _ ← repeated (
    oneOfWords ["public", "private", "protected", "readonly", "override"]
      <* lookahead (rules .pattern))
  let _ ← optionally (sign "...")
  let bound ← rules .pattern
  if (← read).hasTypes then
    let _ ← optionally (sign "?")
  let _ ← optionally (typeAfterColon rules)
  return bound :: (← optionally (defaultValue rules)).toList

/-- The parameters of a function. -/
def parameters (rules : Rules) : Parser Node :=
  nodeOver "formal_parameters" (List.flatten <$> bracketed "(" (parameter rules) ")")

end ExportCover.Source
