import ExportCover.Text.Basic

/-!
# Source trees

The tree of a source text: nodes with a kind, the name of the field under which they stand in their
parent, the text that they cover and where that starts and ends. Kinds and fields are open sets of
names, as a grammar gives them. A node is `named` if it stands for a rule of the grammar and not for
a literal token.
-/

namespace ExportCover

/-- A place in a source text: rows and columns from zero, columns counted in bytes. -/
structure Point where
  row : Nat
  column : Nat
deriving DecidableEq, Repr, Inhabited

/-- A node of a source tree. -/
structure Node where
  kind : String
  field : Option String
  named : Bool
  text : String
  start : Point
  stop : Point
  children : List Node
deriving Repr, Inhabited

namespace Node

/-- The children that stand for rules. -/
def namedChildren (node : Node) : List Node :=
  node.children.filter (·.named)

/-- The named children of one kind. -/
def childrenOf (node : Node) (kind : String) : List Node :=
  node.namedChildren.filter (·.kind == kind)

/-- The first child that stands under a field. -/
def child? (node : Node) (field : String) : Option Node :=
  node.children.find? (·.field == some field)

/-- The name that a node spells; quotes around it are removed. -/
def spelledName (node : Node) : String :=
  if node.kind == "string" then Text.dropEnds node.text else node.text

/-- The line of a node's start, from one. -/
def line (node : Node) : Nat := node.start.row + 1

/-- The column of a node's start, from one. -/
def column (node : Node) : Nat := node.start.column + 1

mutual

/-- What an expression is without the parentheses around it; empty parentheses hold nothing. -/
def unwrap : Node → Option Node
  | ⟨kind, field, named, text, start, stop, children⟩ =>
    if kind == "parenthesized_expression" then unwrapFirst children
    else some ⟨kind, field, named, text, start, stop, children⟩

/-- The first named node that is no comment, without the parentheses around it. -/
def unwrapFirst : List Node → Option Node
  | [] => none
  | node :: rest => if node.named && node.kind != "comment" then unwrap node else unwrapFirst rest

end

mutual

/-- The node and all nodes below it, in the order of the text. -/
def preorder : Node → List Node
  | ⟨kind, field, named, text, start, stop, children⟩ =>
    ⟨kind, field, named, text, start, stop, children⟩ :: preorderList children

/-- The nodes of a list and all nodes below them, in the order of the text. -/
def preorderList : List Node → List Node
  | [] => []
  | node :: rest => preorder node ++ preorderList rest

end

/-- Every element of a list with the elements before it, the nearest first. -/
def withPreceding {α : Type} (before : List α) : List α → List (List α × α)
  | [] => []
  | x :: rest => (before, x) :: withPreceding (x :: before) rest

/-- The named children of a node, each with the siblings before it, the nearest first. -/
def placedChildren (node : Node) : List (List Node × Node) :=
  (withPreceding [] node.children).filter (·.2.named)

end Node

end ExportCover
