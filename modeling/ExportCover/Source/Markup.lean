import ExportCover.Source.Types

/-!
# Markup

Elements written inside expressions. Between the tags of an element everything but a brace and an
angle bracket is text, comments included.
-/

namespace ExportCover.Source

/-- The length of the name of an element or an attribute. -/
def tagNameLength (rest : List Glyph) : Nat :=
  (rest.takeWhile fun glyph => isWordChar glyph || ['-', '.', ':'].contains glyph.char).length

/-- The name of an element or an attribute. -/
def tagName : Parser Node :=
  nodeOver "identifier" do
    let rest := (← get).rest
    guard (0 < wordLength 0 true rest)
    let _ ← take (tagNameLength rest)
    return []

/-- An expression in braces, which may be left out. -/
def container (rules : Rules) : Parser (List Node) := do
  sign "\x7b"
  let _ ← optionally (sign "...")
  let inner ← optionally rules.full
  sign "\x7d"
  return inner.toList

/-- The text of an attribute, up to the next quote of its kind. -/
def attributeText (quote : Char) : Parser (List Node) := do
  sign (String.ofList [quote])
  modify fun cursor => cursor.skip (cursor.rest.takeWhile (·.char != quote)).length
  signHere (String.ofList [quote])
  return []

/-- An attribute of an element. -/
def tagAttribute (rules : Rules) : Parser (List Node) :=
  container rules
    <|> (do
      let _ ← tagName
      let value ← optionally do
        sign "="
        attributeText '\x22' <|> attributeText '\x27' <|> container rules
          <|> (do return [← rules .element])
      return value.getD [])

/-- What stands between the tags of an element. -/
def content (rules : Rules) : Parser (List Node) := do
  let parts ← repeated (text <|> container rules <|> inner)
  return parts.flatten
where
  /-- Characters that stand for themselves. -/
  text : Parser (List Node) := do
    let rest := (← get).rest
    let _ ← take (rest.takeWhile fun glyph => glyph.char != '<' && glyph.char != '\x7b').length
    return []
  /-- An element inside the element. -/
  inner : Parser (List Node) := do
    return [← rules .element]

/-- The tag that ends an element. -/
def closingTag : Parser Unit := do
  sign "<"
  sign "/"
  let _ ← optionally tagName
  sign ">"

/-- An element without a content of its own. -/
def selfClosingElement (rules : Rules) : Parser Node :=
  nodeOver "jsx_self_closing_element" do
    sign "<"
    let name ← inField "name" tagName
    let _ ← optionally (typeArguments rules)
    let attributes ← repeated (tagAttribute rules)
    sign "/"
    sign ">"
    return name :: attributes.flatten

/-- An element with a content. -/
def openElement (rules : Rules) : Parser Node :=
  nodeOver "jsx_element" do
    sign "<"
    let attributes ← (do
      let _ ← tagName
      let _ ← optionally (typeArguments rules)
      repeated (tagAttribute rules)) <|> return []
    sign ">"
    let inner ← content rules
    closingTag
    return attributes.flatten ++ inner

/-- An element. -/
def element (rules : Rules) : Parser Node :=
  selfClosingElement rules <|> openElement rules

end ExportCover.Source
