import Mathlib.Algebra.BigOperators.Group.List.Basic
import Mathlib.Algebra.GroupWithZero.Nat
import ExportCover.Proofs.Exports.Position

/-!
# How many functions are exported

The number of functions that a program exports under a name at a place, counted over its export
statements without collecting them. The three shapes are a declaration of a function, a declaration
of exactly one variable that holds an arrow function, and the items of an export list whose local
names are bound to functions. Collecting the exports neither drops nor repeats one of them
(`Node.countP_exports`).
-/

namespace ExportCover

/-- The function has this name and is exported at this place. -/
def ExportedFunction.isAt (name : String) (line column : Nat) (function : ExportedFunction) :
    Bool :=
  function.name == name && function.line == line && function.column == column

namespace Node

/-- The declaration is one of exactly one variable, which has this name and holds an arrow
function. -/
def DeclaresArrow (declaration : Node) (name : String) : Prop :=
  declaration.isVariableDeclaration ∧ declaration.declarators.length = 1 ∧
    ∃ declarator ∈ declaration.declarators, declarator.Names name ∧ declarator.HoldsArrow

/-- The item of an export list exports a function of the program under this name. -/
def ReExports (program specifier : Node) (name : String) : Prop :=
  name ≠ "" ∧ name ≠ "default" ∧
    ∃ localName ∈ specifier.child? "name",
      ((specifier.child? "alias").getD localName).spelledName = name ∧
        program.ResolvesToFunction localName.spelledName

/-- Whether a declarator names a name can be computed. -/
instance (declarator : Node) (name : String) : Decidable (declarator.Names name) :=
  inferInstanceAs (Decidable (∃ target ∈ declarator.child? "name", _))

/-- Whether a declaration declares a function of a name can be computed. -/
instance (declaration : Node) (name : String) : Decidable (declaration.DeclaresFunction name) :=
  inferInstanceAs (Decidable (_ ∧ ∃ target ∈ declaration.child? "name", _))

/-- Whether a declaration binds a name to an arrow function can be computed. -/
instance (declaration : Node) (name : String) : Decidable (declaration.DeclaresArrow name) :=
  inferInstanceAs (Decidable (_ ∧ _ ∧ ∃ declarator ∈ declaration.declarators, _))

/-- Whether a specifier exports a function under a name can be computed. -/
instance (program specifier : Node) (name : String) :
    Decidable (program.ReExports specifier name) :=
  inferInstanceAs (Decidable (_ ∧ _ ∧ ∃ localName ∈ specifier.child? "name", _))

/-- The number of functions that an export statement of a program exports under a name. -/
def functionExports (program statement : Node) (name : String) : Nat :=
  if statement.isDefaultExport then 0
  else
    match statement.child? "declaration" with
    | some declaration =>
      if declaration.DeclaresFunction name ∨ declaration.DeclaresArrow name then 1 else 0
    | none =>
      if (statement.child? "source").isSome then 0
      else statement.specifiers.countP fun specifier => program.ReExports specifier name

/-- The number of functions that a program exports under a name by statements that start at a place
and have no marker above them. -/
def functionExportsAt (program : Node) (marker name : String) (line column : Nat) : Nat :=
  ((program.placedExports.filter fun (preceding, statement) =>
      !statement.isMarked marker preceding && statement.line == line
        && statement.column == column).map fun placed =>
    program.functionExports placed.2 name).sum

/-- Functions at one place, with the number of those that have a name. -/
structure Offers (functions : List ExportedFunction) (line column : Nat) (count : String → Nat) :
    Prop where
  placed : ∀ function ∈ functions, function.line = line ∧ function.column = column
  counted : ∀ name, functions.countP (·.name == name) = count name

/-- Functions at one place are counted there and nowhere else. -/
lemma Offers.countP_isAt {functions : List ExportedFunction} {line column : Nat}
    {count : String → Nat} (offers : Offers functions line column count) (name : String)
    (line' column' : Nat) :
    functions.countP (·.isAt name line' column')
      = if line = line' ∧ column = column' then count name else 0 := by
  split
  next here =>
    rw [← offers.counted name]
    refine List.countP_congr fun function mem => ?_
    obtain ⟨sameLine, sameColumn⟩ := offers.placed function mem
    simp [ExportedFunction.isAt, sameLine, sameColumn, here]
  next elsewhere =>
    rw [List.countP_eq_zero]
    intro function mem isAt
    obtain ⟨sameLine, sameColumn⟩ := offers.placed function mem
    simp only [ExportedFunction.isAt, Bool.and_eq_true, beq_iff_eq] at isAt
    exact elsewhere ⟨sameLine.symm.trans isAt.1.2, sameColumn.symm.trans isAt.2⟩

/-- No functions are offered where none are counted. -/
lemma Offers.nil {line column : Nat} {count : String → Nat} (none : ∀ name, count name = 0) :
    Offers [] line column count :=
  ⟨by simp, fun name => by rw [none]; rfl⟩

/-- One function is offered where its name alone is counted, once. -/
lemma Offers.singleton (function : ExportedFunction) {count : String → Nat}
    (one : ∀ name, count name = if function.name = name then 1 else 0) :
    Offers [function] function.line function.column count :=
  ⟨by simp, fun name => by simp [one, List.countP_singleton]⟩

/-- A declaration of a function exports it under its name. -/
lemma offers_function {declaration : Node} (isFunction : declaration.isFunctionDeclaration)
    (line column : Nat) :
    Offers ((declaration.child? "name").map fun name =>
      (⟨name.text, .namedFunction, line, column⟩ : ExportedFunction)).toList line column
      fun name => if declaration.DeclaresFunction name ∨ declaration.DeclaresArrow name then 1
        else 0 := by
  have noArrow : ∀ name, ¬ declaration.DeclaresArrow name := fun name arrow => by
    rw [DeclaresArrow, isVariableDeclaration_eq_false isFunction] at arrow
    cases arrow.1
  cases target : declaration.child? "name" with
  | none => exact .nil fun name => by simp [DeclaresFunction, noArrow, target]
  | some node =>
    exact .singleton ⟨node.text, .namedFunction, line, column⟩ fun name => by
      simp [DeclaresFunction, noArrow, target, isFunction]

/-- A declarator has one name at most. -/
lemma names_iff_text_eq {declarator target : Node} {name : String}
    (named : declarator.identifier? = some target) :
    declarator.Names name ↔ target.text = name := by
  obtain ⟨found, isIdentifier⟩ := identifier?_eq_some_iff.mp named
  simp [Names, found, isIdentifier]

/-- A declarator without an identifier names nothing. -/
lemma not_names_of_identifier?_eq_none {declarator : Node} {name : String}
    (unnamed : declarator.identifier? = none) : ¬ declarator.Names name := by
  rintro ⟨target, found, isIdentifier, _⟩
  cases unnamed.symm.trans (identifier?_eq_some_iff.mpr ⟨found, isIdentifier⟩)

/-- What is no function declaration declares no function. -/
lemma not_declaresFunction {declaration : Node} {name : String}
    (noFunction : declaration.isFunctionDeclaration = false) :
    ¬ declaration.DeclaresFunction name := by
  rw [DeclaresFunction, noFunction]
  simp

/-- A declaration of one variable exports a function if the variable holds an arrow function. -/
lemma offers_single {declaration declarator target : Node}
    (noFunction : declaration.isFunctionDeclaration = false)
    (isVariable : declaration.isVariableDeclaration)
    (alone : declaration.declarators = [declarator]) (named : declarator.identifier? = some target)
    (line column : Nat) :
    Offers (if declarator.bindsArrow then [⟨target.text, .arrowBinding, line, column⟩] else [])
      line column
      fun name => if declaration.DeclaresFunction name ∨ declaration.DeclaresArrow name then 1
        else 0 := by
  simp only [not_declaresFunction noFunction, DeclaresArrow, isVariable, alone,
    List.length_singleton, List.mem_singleton, exists_eq_left, names_iff_text_eq named,
    ← bindsArrow_iff, false_or, true_and]
  cases declarator.bindsArrow with
  | false => exact .nil fun name => by simp
  | true => exact .singleton ⟨target.text, .arrowBinding, line, column⟩ fun name => by simp

/-- Other declarations of variables are ones of no single arrow function. -/
lemma not_declaresArrow {declaration : Node} {name : String}
    (notSingle : ∀ declarator, declaration.declarators = [declarator] →
      declarator.identifier? = none) : ¬ declaration.DeclaresArrow name := by
  rintro ⟨_, length, declarator, mem, names, _⟩
  obtain ⟨only, alone⟩ := List.length_eq_one_iff.mp length
  obtain rfl : declarator = only := by simpa [alone] using mem
  exact not_names_of_identifier?_eq_none (notSingle declarator alone) names

/-- Every declaration exports the functions that it declares. -/
lemma offers_declaration {declaration : Node} {line column : Nat} {exports : Exports}
    (extracted : declaration.exportsOfDeclaration line column = .ok exports) :
    Offers exports.functions line column
      fun name => if declaration.DeclaresFunction name ∨ declaration.DeclaresArrow name then 1
        else 0 := by
  cases declaration.form with
  | function isFunction =>
    rw [exportsOfDeclaration_function isFunction] at extracted
    cases extracted
    exact offers_function isFunction line column
  | single noFunction isVariable declarator target alone named =>
    rw [exportsOfDeclaration_single noFunction isVariable alone named] at extracted
    cases extracted
    exact offers_single noFunction isVariable alone named line column
  | compound noFunction isVariable notSingle =>
    rw [exportsOfDeclaration_compound noFunction isVariable notSingle] at extracted
    obtain ⟨unchecked, _, rfl⟩ := Outcome.map_eq_ok.mp extracted
    refine .nil fun name => if_neg ?_
    rw [not_or]
    exact ⟨not_declaresFunction noFunction, not_declaresArrow notSingle⟩
  | other noFunction noVariable =>
    rw [exportsOfDeclaration_other noFunction noVariable] at extracted
    cases extracted
    exact .nil fun name => by simp [not_declaresFunction noFunction, DeclaresArrow, noVariable]

/-- An item of an export list exports one function or none. -/
lemma offers_specifier (program specifier : Node) (line column : Nat) :
    Offers (exportsOfSpecifier program.symbolTable line column specifier).functions line column
      fun name => if program.ReExports specifier name then 1 else 0 := by
  rw [exportsOfSpecifier]
  cases target : specifier.child? "name" with
  | none => exact .nil fun name => by simp [ReExports, target]
  | some localName =>
    simp only [ReExports, target, Option.mem_some_iff, exists_eq_left', ← isCallable_symbolTable]
    generalize ((specifier.child? "alias").getD localName).spelledName = exported
    by_cases isDefault : exported = "default"
    · rw [if_pos (by simpa using isDefault)]
      refine .nil fun name => if_neg ?_
      rintro ⟨_, ne, rfl, _⟩
      exact ne isDefault
    · rw [if_neg (by simpa using isDefault)]
      by_cases callable :
          exported ≠ "" ∧ (program.symbolTable.kind? localName.spelledName).any (·.isCallable)
      · rw [if_pos (by simpa using callable)]
        refine .singleton ⟨exported, .reExported, line, column⟩ fun name => if_congr ?_ rfl rfl
        constructor
        · exact fun reExports => reExports.2.2.1
        · rintro rfl
          exact ⟨callable.1, isDefault, rfl, callable.2⟩
      · rw [if_neg (by simpa using callable)]
        refine .nil fun name => if_neg ?_
        rintro ⟨ne, _, rfl, isCallable⟩
        exact callable ⟨ne, isCallable⟩

/-- Functions of two parts of a statement are counted together. -/
lemma Offers.append {a b : List ExportedFunction} {line column : Nat} {count count' : String → Nat}
    (first : Offers a line column count) (second : Offers b line column count') :
    Offers (a ++ b) line column fun name => count name + count' name := by
  refine ⟨fun function mem => ?_, fun name => ?_⟩
  · obtain mem | mem := List.mem_append.mp mem
    · exact first.placed function mem
    · exact second.placed function mem
  · rw [List.countP_append, first.counted, second.counted]

/-- The items of export lists add up. -/
lemma offers_specifiers (program : Node) (line column : Nat) (specifiers : List Node) :
    Offers (Exports.join (specifiers.map
      (exportsOfSpecifier program.symbolTable line column))).functions line column
      fun name => specifiers.countP fun specifier => program.ReExports specifier name := by
  induction specifiers with
  | nil => exact .nil fun _ => rfl
  | cons specifier rest ih =>
    have both := (offers_specifier program specifier line column).append ih
    refine ⟨both.placed, fun name => (both.counted name).trans ?_⟩
    rw [List.countP_cons, Nat.add_comm]
    simp only [decide_eq_true_eq]

/-- Every export statement exports the functions that are counted for it, at its start. -/
lemma offers_statement {program statement : Node} {exports : Exports}
    (extracted : statement.exportsOfStatement program.symbolTable = .ok exports) :
    Offers exports.functions statement.line statement.column
      (program.functionExports statement) := by
  rw [exportsOfStatement] at extracted
  by_cases isDefault : statement.isDefaultExport
  · rw [if_pos isDefault] at extracted
    cases extracted
    exact .nil fun name => by rw [functionExports, if_pos isDefault]
  · rw [if_neg isDefault] at extracted
    cases declared : statement.child? "declaration" with
    | some declaration =>
      rw [declared] at extracted
      refine ⟨(offers_declaration extracted).placed, fun name => ?_⟩
      rw [(offers_declaration extracted).counted, functionExports, if_neg isDefault, declared]
    | none =>
      rw [declared] at extracted
      cases extracted
      rw [exportsOfClauses_eq]
      -- A list with a source hands on what another module exports.
      by_cases sourced : (statement.child? "source").isSome
      · rw [if_pos sourced]
        refine .nil fun name => ?_
        rw [functionExports, if_neg isDefault, declared]
        exact if_pos sourced
      · rw [if_neg sourced]
        have listed := offers_specifiers program statement.line statement.column
          statement.specifiers
        refine ⟨listed.placed, fun name => (listed.counted name).trans ?_⟩
        rw [functionExports, if_neg isDefault, declared]
        exact (if_neg sourced).symm

/-- Collecting the exports of a program neither drops nor repeats a function. -/
theorem countP_exports {program : Node} {marker : String} {exports : Exports}
    (extracted : program.exports marker = .ok exports) (name : String) (line column : Nat) :
    exports.functions.countP (·.isAt name line column)
      = program.functionExportsAt marker name line column := by
  obtain ⟨each, rfl⟩ := exports_eq_join extracted
  -- Each part stands at the start of its statement, so that it counts there or nowhere.
  have counted : ∀ placed ∈ program.placedExports.filter (isUnmarked marker),
      (placed.2.offered program.symbolTable).functions.countP (·.isAt name line column)
        = if placed.2.line = line ∧ placed.2.column = column then
            program.functionExports placed.2 name
          else 0 :=
    fun placed mem => (offers_statement (each placed mem)).countP_isAt name line column
  have here : (fun placed : List Node × Node => !placed.2.isMarked marker placed.1
        && placed.2.line == line && placed.2.column == column)
      = fun placed => decide (placed.2.line = line ∧ placed.2.column = column)
        && isUnmarked marker placed := by
    funext placed
    rw [isUnmarked, Bool.and_assoc, Bool.and_comm, Bool.decide_and]
    rfl
  rw [Exports.join, List.flatMap_map, List.countP_flatMap, functionExportsAt, here,
    ← List.filter_filter]
  refine (congrArg List.sum (List.map_congr_left counted)).trans ?_
  rw [List.sum_map_ite, List.sum_map_zero, Nat.add_zero]

end Node

end ExportCover
