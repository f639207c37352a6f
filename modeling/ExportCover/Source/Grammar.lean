import ExportCover.Fault
import ExportCover.Text.Basic

/-!
# Grammars

The languages that modules and tests are written in. The name of a file chooses the grammar.
-/

namespace ExportCover

/-- A language of the JavaScript family. -/
inductive Grammar where
  | typescript
  | tsx
  | javascript
deriving DecidableEq, Repr

namespace Grammar

/-- All grammars, in the order in which a file name is tried. -/
def all : List Grammar := [typescript, tsx, javascript]

/-- The name of a grammar. -/
def name : Grammar → String
  | .typescript => "typescript"
  | .tsx => "tsx"
  | .javascript => "javascript"

/-- The extensions of the files that a grammar reads. -/
def extensions : Grammar → List String
  | .typescript => [".ts", ".mts", ".cts"]
  | .tsx => [".tsx"]
  | .javascript => [".js", ".jsx", ".mjs", ".cjs"]

/-- The grammar has types. -/
def hasTypes : Grammar → Bool
  | .javascript => false
  | _ => true

/-- The grammar has elements of markup. A cast in angle brackets takes their place in TypeScript. -/
def hasMarkup : Grammar → Bool
  | .typescript => false
  | _ => true

/-- The grammar with a name. -/
def ofName (name : String) : Except Fault Grammar :=
  match all.find? (·.name == name) with
  | some grammar => .ok grammar
  | none => .error (.unknownGrammar name)

/-- The grammar for a file; capitals in its extension do not matter. -/
def ofPath? (path : String) : Option Grammar :=
  all.find? fun grammar => grammar.extensions.any (Text.endsWith (Text.lower path))

/-- The grammar for a file that needs one. -/
def ofPath (path : String) : Except Fault Grammar :=
  match ofPath? path with
  | some grammar => .ok grammar
  | none => .error (.noGrammar path)

end Grammar

end ExportCover
