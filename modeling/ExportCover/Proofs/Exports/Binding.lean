import Mathlib.Data.List.Basic
import Mathlib.Tactic.Lemma
import ExportCover.Exports

/-!
# What top-level names are bound to

What it means for a declaration to bind a name and to bind it to a function, said without the symbol
table. Parentheses around an initialiser are removed by a relation (`Node.Unwraps`), and of several
bindings of a name the last one counts (`LastIs`). The symbol table agrees: the kind that it holds
for a name can be called exactly if the program binds the name to a function
(`Node.isCallable_symbolTable`).
-/

namespace ExportCover

/-- Of the relevant elements of a list the last one is good. -/
def LastIs {α : Type} (relevant good : α → Prop) : List α → Prop
  | [] => False
  | x :: rest => LastIs relevant good rest ∨ good x ∧ ∀ y ∈ rest, ¬ relevant y

/-- The last element with a value is found from the end of a list. -/
lemma lastIs_iff {α β : Type} {relevant good : α → Prop} {value : α → Option β} {p : β → Bool}
    (isRelevant : ∀ x, relevant x ↔ value x ≠ none) (isGood : ∀ x, good x ↔ (value x).any p)
    (l : List α) : LastIs relevant good l ↔ (l.reverse.findSome? value).any p := by
  induction l with
  | nil => simp [LastIs]
  | cons x rest ih =>
    rw [LastIs, ih, List.reverse_cons, List.findSome?_append, isGood]
    -- Whether `x` counts depends on whether anything relevant follows it.
    have absent : (∀ y ∈ rest, ¬ relevant y) ↔ rest.reverse.findSome? value = none := by
      simp [isRelevant]
    rw [absent]
    cases rest.reverse.findSome? value with
    | none => simp
    | some b => simp

/-- Values of chosen elements are found among all elements. -/
lemma findSome?_filterMap {α β γ : Type} (choose : α → Option β) (value : β → Option γ)
    (l : List α) :
    (l.filterMap choose).findSome? value = l.findSome? fun x => (choose x).bind value := by
  induction l with
  | nil => rfl
  | cons x rest ih =>
    cases chosen : choose x with
    | none => rw [List.filterMap_cons_none chosen, ih, List.findSome?_cons, chosen]; rfl
    | some b =>
      rw [List.filterMap_cons_some chosen, List.findSome?_cons, List.findSome?_cons, chosen, ih]
      rfl

namespace Node

/-- Removing the parentheses around an expression. What parentheses hold is their first named child
that is no comment. -/
inductive Unwraps : Node → Node → Prop where
  | bare {node} : node.kind ≠ "parenthesized_expression" → Unwraps node node
  | parens {node inner value} : node.kind = "parenthesized_expression" →
      node.children.find? (fun child => child.named && child.kind != "comment") = some inner →
      Unwraps inner value → Unwraps node value

/-- What a list of nodes holds is what its first named node that is no comment holds. -/
lemma unwrapFirst_eq (nodes : List Node) :
    unwrapFirst nodes
      = (nodes.find? fun child => child.named && child.kind != "comment").bind unwrap := by
  induction nodes with
  | nil => rw [unwrapFirst]; rfl
  | cons node rest ih =>
    rw [unwrapFirst, List.find?_cons]
    cases node.named && node.kind != "comment" with
    | true => rfl
    | false => exact ih

/-- Unwrapping goes into parentheses and leaves all else. -/
lemma unwrap_eq (node : Node) :
    node.unwrap = if node.kind == "parenthesized_expression" then
      (node.children.find? fun child => child.named && child.kind != "comment").bind unwrap
      else some node := by
  obtain ⟨kind, field, named, text, start, stop, children⟩ := node
  rw [unwrap, unwrapFirst_eq]

/-- Parentheses that are removed by the relation are removed by the function. -/
lemma Unwraps.unwrap_eq_some {node value : Node} (unwraps : Unwraps node value) :
    node.unwrap = some value := by
  induction unwraps with
  | bare plain => rw [unwrap_eq, if_neg (by simpa using plain)]
  | parens wrapped held _ ih => rw [unwrap_eq, if_pos (by simpa using wrapped), held]; exact ih

/-- Parentheses that are removed by the function are removed by the relation. -/
lemma unwraps_of_unwrap {node value : Node} (unwrapped : node.unwrap = some value) :
    Unwraps node value := by
  -- The induction is on the recursion of the function; of a list it says that what its first named
  -- node leaves is right.
  refine unwrap.induct (fun node => ∀ value, node.unwrap = some value → Unwraps node value)
    (fun nodes => ∀ inner, nodes.find? (fun child => child.named && child.kind != "comment")
      = some inner → ∀ value, inner.unwrap = some value → Unwraps inner value)
    ?parens ?bare ?nil ?first ?skip node value unwrapped
  case parens =>
    intro kind field named text start stop children wrapped ih value unwrapped
    rw [unwrap_eq, if_pos wrapped] at unwrapped
    obtain ⟨inner, held, unwrapped⟩ := Option.bind_eq_some_iff.mp unwrapped
    exact .parens (by simpa using wrapped) held (ih inner held value unwrapped)
  case bare =>
    intro kind field named text start stop children plain value unwrapped
    rw [unwrap_eq, if_neg plain] at unwrapped
    cases unwrapped
    exact .bare (by simpa using plain)
  case nil =>
    intro inner held
    cases held
  case first =>
    intro node rest isFirst ih inner held
    rw [List.find?_cons, isFirst] at held
    cases held
    exact ih
  case skip =>
    intro node rest skipped ih inner held
    rw [List.find?_cons, Bool.eq_false_iff.mpr skipped] at held
    exact ih inner held

/-- The initialiser of a declarator is an arrow function once its parentheses are removed. -/
def HoldsArrow (declarator : Node) : Prop :=
  ∃ initial value, declarator.child? "value" = some initial ∧ Unwraps initial value ∧
    value.kind = "arrow_function"

/-- The check for an arrow function looks through parentheses. -/
lemma bindsArrow_iff {declarator : Node} : declarator.bindsArrow ↔ declarator.HoldsArrow := by
  rw [bindsArrow]
  constructor
  · intro arrow
    cases unwrapped : (declarator.child? "value").bind unwrap with
    | none => rw [unwrapped] at arrow; cases arrow
    | some value =>
      rw [unwrapped] at arrow
      obtain ⟨initial, found, unwrapped⟩ := Option.bind_eq_some_iff.mp unwrapped
      exact ⟨initial, value, found, unwraps_of_unwrap unwrapped, by simpa using arrow⟩
  · rintro ⟨initial, value, found, unwraps, arrow⟩
    rw [found, Option.bind_some, unwraps.unwrap_eq_some]
    simpa using arrow

/-- Whether a declarator holds an arrow function can be computed. -/
instance (declarator : Node) : Decidable declarator.HoldsArrow :=
  decidable_of_iff _ bindsArrow_iff

/-- The declarator binds one name, and it is this one. -/
def Names (declarator : Node) (name : String) : Prop :=
  ∃ target ∈ declarator.child? "name", target.kind = "identifier" ∧ target.text = name

/-- The declaration is one of a function or a generator with this name. -/
def DeclaresFunction (declaration : Node) (name : String) : Prop :=
  declaration.isFunctionDeclaration ∧ ∃ target ∈ declaration.child? "name", target.text = name

/-- The declaration binds the name. -/
def Binds (declaration : Node) (name : String) : Prop :=
  declaration.DeclaresFunction name ∨
    declaration.isVariableDeclaration ∧
      ∃ declarator ∈ declaration.declarators, declarator.Names name

/-- The declaration binds the name to a function: the last of its declarators with the name holds an
arrow function if it is a declaration of variables. -/
def BindsFunction (declaration : Node) (name : String) : Prop :=
  declaration.DeclaresFunction name ∨
    declaration.isVariableDeclaration ∧
      LastIs (·.Names name) (fun declarator => declarator.Names name ∧ declarator.HoldsArrow)
        declaration.declarators

/-- Of the top-level declarations that bind the name, exported or not, the last one binds it to a
function. -/
def ResolvesToFunction (program : Node) (name : String) : Prop :=
  LastIs (·.Binds name) (·.BindsFunction name) (program.namedChildren.filterMap declaration?)

/-- A declaration of a function is none of variables. -/
lemma isVariableDeclaration_eq_false {declaration : Node}
    (isFunction : declaration.isFunctionDeclaration) :
    declaration.isVariableDeclaration = false := by
  simp only [isFunctionDeclaration, Bool.or_eq_true, beq_iff_eq] at isFunction
  obtain kind | kind := isFunction
  · simp [isVariableDeclaration, kind]
  · simp [isVariableDeclaration, kind]

/-- What a binding binds a name to. -/
def kindIn (name : String) (binding : String × BindingKind) : Option BindingKind :=
  if binding.1 = name then some binding.2 else none

/-- A binding gives a name a kind exactly if it is about that name and kind. -/
lemma kindIn_eq_some_iff {name : String} {binding : String × BindingKind} {kind : BindingKind} :
    kindIn name binding = some kind ↔ binding = (name, kind) := by
  obtain ⟨bound, boundKind⟩ := binding
  simp [kindIn]

/-- What a declarator binds a name to. -/
def declaratorKind (name : String) (declarator : Node) : Option BindingKind :=
  (declarator.identifier?.map fun target => (target.text, declarator.boundKind)).bind (kindIn name)

/-- What a declaration binds a name to at last. -/
def declaredKind (name : String) (declaration : Node) : Option BindingKind :=
  declaration.bindings.reverse.findSome? (kindIn name)

/-- The name of a declarator is an identifier that stands under the field for it. -/
lemma identifier?_eq_some_iff {declarator target : Node} :
    declarator.identifier? = some target ↔
      declarator.child? "name" = some target ∧ target.kind = "identifier" := by
  rw [identifier?, Option.filter_eq_some_iff, beq_iff_eq]

/-- A declarator with an identifier binds the text of the identifier. -/
lemma declaratorKind_eq (name : String) (declarator : Node) :
    declaratorKind name declarator = (declarator.child? "name").bind fun target =>
      if target.kind = "identifier" ∧ target.text = name then some declarator.boundKind
      else none := by
  rw [declaratorKind, identifier?]
  cases declarator.child? "name" with
  | none => rfl
  | some target =>
    by_cases isIdentifier : target.kind = "identifier" <;>
      simp [Option.filter, isIdentifier, kindIn]

/-- A declarator names what it binds. -/
lemma names_iff {declarator : Node} {name : String} :
    declarator.Names name ↔ declaratorKind name declarator ≠ none := by
  rw [Names, declaratorKind_eq]
  cases declarator.child? "name" with
  | none => simp
  | some target => simp

/-- A declarator binds a name to a function if it holds an arrow function. -/
lemma names_and_holdsArrow_iff {declarator : Node} {name : String} :
    declarator.Names name ∧ declarator.HoldsArrow ↔
      (declaratorKind name declarator).any (·.isCallable) := by
  rw [Names, declaratorKind_eq, ← bindsArrow_iff, boundKind]
  cases declarator.child? "name" with
  | none => simp
  | some target =>
    by_cases named : target.kind = "identifier" ∧ target.text = name
    · cases declarator.bindsArrow <;> simp [named, BindingKind.isCallable]
    · simp [named]

/-- A function declaration gives its own name the kind of a function. -/
lemma declaredKind_function {declaration : Node} {name : String}
    (isFunction : declaration.isFunctionDeclaration) :
    declaredKind name declaration
      = (declaration.child? "name").bind fun target => kindIn name (target.text, .function) := by
  rw [declaredKind, bindings, if_pos isFunction]
  cases declaration.child? "name" with
  | none => rfl
  | some target => simp

/-- A variable declaration gives a name the kind of the last declarator of that name. -/
lemma declaredKind_variables {declaration : Node} {name : String}
    (noFunction : declaration.isFunctionDeclaration = false)
    (isVariable : declaration.isVariableDeclaration) :
    declaredKind name declaration
      = declaration.declarators.reverse.findSome? (declaratorKind name) := by
  rw [declaredKind, bindings, if_neg (by simp [noFunction]), if_pos isVariable,
    ← List.filterMap_reverse, findSome?_filterMap]
  rfl

/-- The kind that a declaration gives to a name tells whether it binds the name. -/
lemma binds_iff {declaration : Node} {name : String} :
    declaration.Binds name ↔ declaredKind name declaration ≠ none := by
  rw [Binds, DeclaresFunction]
  by_cases isFunction : declaration.isFunctionDeclaration
  · rw [declaredKind_function isFunction, isVariableDeclaration_eq_false isFunction]
    cases declaration.child? "name" with
    | none => simp
    | some target => simp [isFunction, kindIn]
  · by_cases isVariable : declaration.isVariableDeclaration
    · rw [declaredKind_variables (by simpa using isFunction) isVariable]
      simp [isFunction, isVariable, names_iff]
    · simp [declaredKind, bindings, isFunction, isVariable]

/-- The kind that a declaration gives to a name tells whether it binds the name to a function. -/
lemma bindsFunction_iff {declaration : Node} {name : String} :
    declaration.BindsFunction name ↔ (declaredKind name declaration).any (·.isCallable) := by
  rw [BindsFunction, DeclaresFunction,
    lastIs_iff (fun _ => names_iff) fun _ => names_and_holdsArrow_iff]
  by_cases isFunction : declaration.isFunctionDeclaration
  · rw [declaredKind_function isFunction, isVariableDeclaration_eq_false isFunction]
    cases declaration.child? "name" with
    | none => simp
    | some target => by_cases same : target.text = name <;>
        simp [isFunction, kindIn, same, BindingKind.isCallable]
  · by_cases isVariable : declaration.isVariableDeclaration
    · rw [declaredKind_variables (by simpa using isFunction) isVariable]
      simp [isFunction, isVariable]
    · simp [declaredKind, bindings, isFunction, isVariable]

end Node

namespace SymbolTable

/-- A name that is bound anew has its new kind, and the other names keep theirs. -/
lemma kind?_bind (symbols : SymbolTable) (binding : String × BindingKind) (name : String) :
    (symbols.bind binding.1 binding.2).kind? name
      = (Node.kindIn name binding).or (symbols.kind? name) := by
  induction symbols with
  | nil => by_cases same : binding.1 = name <;> simp [bind, kind?, Node.kindIn, same]
  | cons entry rest ih =>
    rw [bind]
    by_cases taken : entry.1 = binding.1
    · rw [if_pos (by simpa using taken)]
      by_cases same : binding.1 = name <;> simp [kind?, Node.kindIn, taken, same]
    · rw [if_neg (by simpa using taken)]
      by_cases here : entry.1 = name
      · have ne : binding.1 ≠ name := fun same => taken (here.trans same.symm)
        simp [kind?, Node.kindIn, here, ne]
      · simpa [kind?, here] using ih

/-- Of several bindings the last one counts. -/
lemma kind?_foldl_bind (bindings : List (String × BindingKind)) (symbols : SymbolTable)
    (name : String) :
    (bindings.foldl (fun symbols (name, kind) => symbols.bind name kind) symbols).kind? name
      = (bindings.reverse.findSome? (Node.kindIn name)).or (symbols.kind? name) := by
  induction bindings generalizing symbols with
  | nil => rfl
  | cons binding rest ih =>
    have first := kind?_bind symbols binding name
    rw [List.foldl_cons, ih, first, List.reverse_cons, List.findSome?_append, Option.or_assoc]
    congr 2
    simp

end SymbolTable

namespace Node

/-- The symbol table holds the kind that the last declaration of a name gives to it. -/
lemma kind?_symbolTable (program : Node) (name : String) :
    program.symbolTable.kind? name
      = (program.namedChildren.filterMap declaration?).reverse.findSome? (declaredKind name) := by
  rw [symbolTable]
  suffices folded : ∀ (declarations : List Node) (symbols : SymbolTable),
      SymbolTable.kind? (declarations.foldl (fun symbols declaration => declaration.bindings.foldl
        (fun symbols (name, kind) => symbols.bind name kind) symbols) symbols) name
        = (declarations.reverse.findSome? (declaredKind name)).or (symbols.kind? name) by
    rw [folded, show SymbolTable.kind? [] name = none from rfl, Option.or_none]
  intro declarations symbols
  induction declarations generalizing symbols with
  | nil => rfl
  | cons declaration rest ih =>
    rw [List.foldl_cons, ih, SymbolTable.kind?_foldl_bind, List.reverse_cons,
      List.findSome?_append, Option.or_assoc]
    congr 2
    simp [declaredKind]

/-- The symbol table finds a function under a name if the program binds the name to a function. -/
lemma isCallable_symbolTable {program : Node} {name : String} :
    (program.symbolTable.kind? name).any (·.isCallable) ↔ program.ResolvesToFunction name := by
  rw [ResolvesToFunction, lastIs_iff (fun _ => binds_iff) fun _ => bindsFunction_iff,
    kind?_symbolTable]

/-- Whether a name resolves to a function can be computed. -/
instance (program : Node) (name : String) : Decidable (program.ResolvesToFunction name) :=
  decidable_of_iff _ isCallable_symbolTable

end Node

end ExportCover
