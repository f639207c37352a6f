import ExportCover.Proofs.Exports.Statements
import ExportCover.Source.Program

/-!
# No exported function is lost

The symbol table and the exports are collected by two walks over a declaration. What the first one
binds to a function the second one reports, as a function or as an export of several declarators
(`Node.Accounts`), and every item of an export list that names a function is reported once
(`Node.exports_conserved`).
-/

namespace ExportCover

/-- The labels of the exports that are not checked for a reason, in order. -/
def Exports.labels (exports : Exports) (reason : String) : List String :=
  (exports.unchecked.filter (·.reason == reason)).map (·.label)

/-- What a part offers stands in one piece in what all parts offer. -/
lemma Exports.infix_join {part : Exports} {parts : List Exports} (mem : part ∈ parts) :
    part.functions <:+: (join parts).functions ∧ part.unchecked <:+: (join parts).unchecked := by
  obtain ⟨before, after, rfl⟩ := List.append_of_mem mem
  refine ⟨⟨before.flatMap (·.functions), after.flatMap (·.functions), ?_⟩,
    ⟨before.flatMap (·.unchecked), after.flatMap (·.unchecked), ?_⟩⟩
  · simp [join]
  · simp [join]

namespace Node

/-- The target of a declarator is an identifier or a pattern. -/
def HasTarget (declarator : Node) : Prop :=
  ∃ target ∈ declarator.child? "name", target.kind = "identifier" ∨ target.isPattern

/-- Whether a declarator has a target can be computed. -/
instance (declarator : Node) : Decidable declarator.HasTarget :=
  inferInstanceAs (Decidable (∃ target ∈ declarator.child? "name", _))

/-- The names that a declaration binds to functions when the symbol table is filled, in order. -/
def callableNames (declaration : Node) : List String :=
  (declaration.bindings.filter (·.2.isCallable)).map (·.1)

/-- The patterns with which a declaration of variables takes values apart, in order. -/
def patterns (declaration : Node) : List Node :=
  if declaration.isVariableDeclaration then
    (declaration.declarators.filterMap (·.child? "name")).filter (·.isPattern)
  else []

/-- The exports account for the declaration: each of its functions is a function among them or an
export of several declarators, and each of its patterns is an export of a pattern. -/
structure Accounts (declaration : Node) (exports : Exports) : Prop where
  callable : exports.functions.map (·.name) ++ exports.labels "multi-declarator export"
    = declaration.callableNames
  taken : exports.labels "destructured export" = declaration.patterns.map (·.text)

/-- The one entry of an item of an export list whose local name is bound to a function. -/
def listedEntry (statement localName : Node) (exported : String) : Exports :=
  if exported = "default" then
    ⟨[], [⟨localName.spelledName, "default export", statement.line, statement.column⟩]⟩
  else ⟨[⟨exported, .reExported, statement.line, statement.column⟩], []⟩

/-- What a declarator is reported as, beside others or alone, if it is no single identifier. -/
def uncheckedEntry (several : Bool) (line column : Nat) (declarator : Node) :
    Option UncheckedExport :=
  (declarator.child? "name").bind fun target =>
    if target.isPattern then some ⟨target.text, "destructured export", line, column⟩
    else if several && declarator.bindsArrow then
      some ⟨target.text, "multi-declarator export", line, column⟩
    else none

/-- A declarator with a target gives an entry without a fault. -/
lemma declaratorEntry_eq {declarator : Node} (target : declarator.HasTarget) (several : Bool)
    (line column : Nat) :
    declaratorEntry several line column declarator
      = .ok (uncheckedEntry several line column declarator) := by
  obtain ⟨target, found, _⟩ := target
  rw [Option.mem_def] at found
  rw [declaratorEntry, uncheckedEntry, found, Option.bind_some]
  dsimp only
  split
  · rfl
  split
  · rfl
  · rfl

/-- Declarators with targets, other than a single identifier, are all reported by their entries. -/
lemma exportsOfDeclaration_eq {declaration : Node} {line column : Nat}
    (noFunction : declaration.isFunctionDeclaration = false)
    (isVariable : declaration.isVariableDeclaration)
    (targets : ∀ declarator ∈ declaration.declarators, declarator.HasTarget)
    (notSingle : ∀ declarator, declaration.declarators = [declarator] →
      declarator.identifier? = none) :
    declaration.exportsOfDeclaration line column
      = .ok ⟨[], declaration.declarators.filterMap
        (uncheckedEntry declaration.isSeveral line column)⟩ := by
  rw [exportsOfDeclaration_compound noFunction isVariable notSingle, Outcome.filterMapM_eq_ok
    fun declarator mem => declaratorEntry_eq (targets declarator mem) _ line column]
  rfl

/-- The names that declarators bind to arrow functions, in order. -/
def arrowNames (declarators : List Node) : List String :=
  ((declarators.filterMap fun declarator =>
    declarator.identifier?.map fun name => (name.text, declarator.boundKind)).filter
      (·.2.isCallable)).map (·.1)

/-- A single declarator of an identifier counts if it binds an arrow function. -/
lemma arrowNames_single {declarator name : Node} (named : declarator.identifier? = some name) :
    arrowNames [declarator] = if declarator.bindsArrow then [name.text] else [] := by
  rw [arrowNames, List.filterMap_cons, named, boundKind]
  cases declarator.bindsArrow with
  | true => rfl
  | false => rfl

/-- An identifier that holds an arrow function among several declarators is reported as such, and
nothing else is. -/
lemma labels_several {declarators : List Node}
    (targets : ∀ declarator ∈ declarators, declarator.HasTarget) (line column : Nat) :
    Exports.labels ⟨[], declarators.filterMap (uncheckedEntry true line column)⟩
      "multi-declarator export" = arrowNames declarators := by
  induction declarators with
  | nil => rfl
  | cons declarator rest ih =>
    obtain ⟨⟨target, found, shape⟩, targets⟩ := List.forall_mem_cons.mp targets
    have ih := ih targets
    rw [Exports.labels, arrowNames] at ih ⊢
    rw [Option.mem_def] at found
    rw [List.filterMap_cons, List.filterMap_cons, uncheckedEntry, found]
    obtain isIdentifier | isPattern := shape
    · have noPattern : target.isPattern = false := by simp [Node.isPattern, isIdentifier]
      have named := identifier?_eq_some_iff.mpr ⟨found, isIdentifier⟩
      rw [named, boundKind]
      cases declarator.bindsArrow with
      | true => simpa [noPattern, BindingKind.isCallable] using ih
      | false => simpa [noPattern, BindingKind.isCallable] using ih
    · have unnamed : declarator.identifier? = none := by
        have noIdentifier : target.kind ≠ "identifier" := fun same => by
          simp [Node.isPattern, same] at isPattern
        simp [identifier?, found, Option.filter, noIdentifier]
      rw [unnamed]
      simpa [isPattern] using ih

/-- Every pattern is reported as such, and nothing else is. -/
lemma labels_patterns (several : Bool) (line column : Nat) (declarators : List Node) :
    Exports.labels ⟨[], declarators.filterMap (uncheckedEntry several line column)⟩
        "destructured export"
      = ((declarators.filterMap (·.child? "name")).filter (·.isPattern)).map (·.text) := by
  induction declarators with
  | nil => rfl
  | cons declarator rest ih =>
    rw [Exports.labels] at ih ⊢
    rw [List.filterMap_cons, List.filterMap_cons, uncheckedEntry]
    cases declarator.child? "name" with
    | none => exact ih
    | some target =>
      by_cases isPattern : target.isPattern
      · simpa [isPattern] using ih
      · cases several && declarator.bindsArrow with
        | true => simpa [isPattern] using ih
        | false => simpa [isPattern] using ih

/-- A declarator alone is not reported as one of several. -/
lemma labels_alone {declarators : List Node} (alone : ¬ declarators.length > 1)
    (notSingle : ∀ declarator, declarators = [declarator] → declarator.identifier? = none)
    (line column : Nat) :
    Exports.labels ⟨[], declarators.filterMap (uncheckedEntry false line column)⟩
      "multi-declarator export" = arrowNames declarators := by
  match declarators, alone with
  | [], _ => rfl
  | [declarator], _ =>
    rw [Exports.labels, arrowNames, List.filterMap_cons, List.filterMap_cons,
      notSingle declarator rfl, uncheckedEntry]
    cases declarator.child? "name" with
    | none => rfl
    | some target => cases isPattern : target.isPattern <;> simp [isPattern]
  | _ :: _ :: _, alone => simp at alone

/-- The callable names of a variable declaration are those bound to arrow functions. -/
lemma callableNames_variables {declaration : Node}
    (noFunction : declaration.isFunctionDeclaration = false)
    (isVariable : declaration.isVariableDeclaration) :
    declaration.callableNames = arrowNames declaration.declarators := by
  rw [callableNames, bindings, if_neg (by simp [noFunction]), if_pos isVariable, arrowNames]

/-- The exports of a declaration whose declarators have targets account for it. -/
lemma exists_accounts {declaration : Node}
    (targets : ∀ declarator ∈ declaration.declarators, declarator.HasTarget) (line column : Nat) :
    ∃ exports, declaration.exportsOfDeclaration line column = .ok exports ∧
      declaration.Accounts exports := by
  cases declaration.form with
  | function isFunction =>
    refine ⟨_, exportsOfDeclaration_function isFunction line column, ?_, ?_⟩
    · rw [callableNames, bindings, if_pos isFunction]
      cases declaration.child? "name" with
      | none => rfl
      | some name => rfl
    · rw [patterns, isVariableDeclaration_eq_false isFunction]
      rfl
  | single noFunction isVariable declarator name alone named =>
    refine ⟨_, exportsOfDeclaration_single noFunction isVariable alone named line column, ?_, ?_⟩
    · rw [callableNames_variables noFunction isVariable, alone, arrowNames_single named]
      cases declarator.bindsArrow with
      | true => rfl
      | false => rfl
    · rw [patterns, if_pos isVariable, alone]
      simp [identifier?_eq_some_iff.mp named, isPattern, Exports.labels]
  | compound noFunction isVariable notSingle =>
    refine ⟨_, exportsOfDeclaration_eq noFunction isVariable targets notSingle, ?_, ?_⟩
    · rw [callableNames_variables noFunction isVariable, isSeveral]
      -- A declarator alone is a pattern here, and no arrow to be labelled.
      by_cases several : declaration.declarators.length > 1
      · rw [decide_eq_true several]
        exact labels_several targets line column
      · rw [decide_eq_false several]
        exact labels_alone several notSingle line column
    · rw [labels_patterns, patterns, if_pos isVariable]
  | other noFunction noVariable =>
    refine ⟨_, exportsOfDeclaration_other noFunction noVariable line column, ?_, ?_⟩
    · rw [callableNames, bindings, noFunction, noVariable]
      rfl
    · rw [patterns, noVariable]
      rfl

/-- An item of an export list whose local name is bound to a function has one entry. -/
lemma exportsOfSpecifier_eq {program specifier localName statement : Node} {exported : String}
    (found : specifier.child? "name" = some localName)
    (resolves : program.ResolvesToFunction localName.spelledName)
    (spelled : ((specifier.child? "alias").getD localName).spelledName = exported)
    (nonempty : exported ≠ "") :
    exportsOfSpecifier program.symbolTable statement.line statement.column specifier
      = statement.listedEntry localName exported := by
  rw [exportsOfSpecifier, found]
  dsimp only
  rw [spelled, listedEntry]
  by_cases isDefault : exported = "default"
  · rw [if_pos (by simpa using isDefault), if_pos isDefault]
  · rw [if_neg (by simpa using isDefault), if_neg isDefault, if_pos]
    rw [isCallable_symbolTable.mpr resolves]
    simpa using nonempty

/-- What is bound to a function and exported is not lost. If all declarators of exported
declarations are identifiers or patterns, the exports of a program can be told. They hold what each
of its export statements offers that has no marker above it, in one piece. If such a statement has
no `default`, its exports account for its declaration, and without a declaration and a source they
are those of its items, one for each item whose local name is bound to a function. -/
theorem exports_conserved {program : Node} (marker : String)
    (targets : ∀ statement ∈ program.exportStatements,
      ∀ declaration ∈ statement.child? "declaration",
        ∀ declarator ∈ declaration.declarators, declarator.HasTarget) :
    ∃ exports, program.exports marker = .ok exports ∧
      ∀ placed ∈ program.placedExports, placed.2.isMarked marker placed.1 = false →
        placed.2.isDefaultExport = false →
        ∃ own, placed.2.exportsOfStatement program.symbolTable = .ok own ∧
          own.functions <:+: exports.functions ∧ own.unchecked <:+: exports.unchecked ∧
          (∀ declaration ∈ placed.2.child? "declaration", declaration.Accounts own) ∧
          (placed.2.child? "declaration" = none → placed.2.child? "source" = none →
            ∃ entry, own = .join (placed.2.specifiers.map entry) ∧
              ∀ specifier ∈ placed.2.specifiers, ∀ localName ∈ specifier.child? "name",
                program.ResolvesToFunction localName.spelledName →
                ∀ exported, ((specifier.child? "alias").getD localName).spelledName = exported →
                  exported ≠ "" → entry specifier = placed.2.listedEntry localName exported) := by
  -- Every statement by itself has exports, so that those of the program are a row of parts.
  have offered : ∀ statement ∈ program.exportStatements,
      ∃ own, statement.exportsOfStatement program.symbolTable = .ok own := by
    intro statement mem
    rw [exportsOfStatement]
    split
    · exact ⟨_, rfl⟩
    · cases declared : statement.child? "declaration" with
      | some declaration =>
        obtain ⟨own, extracted, _⟩ := exists_accounts (targets statement mem declaration declared)
          statement.line statement.column
        exact ⟨own, extracted⟩
      | none => exact ⟨_, rfl⟩
  have listed : ∀ placed ∈ program.placedExports, placed.2 ∈ program.exportStatements :=
    fun placed mem => map_snd_placedExports program ▸ List.mem_map_of_mem mem
  obtain ⟨parts, all⟩ := Outcome.exists_mapM_eq_ok
    (f := fun placed : List Node × Node => placed.2.exportsOfStatement program.symbolTable)
    fun placed mem => offered placed.2 (listed placed (List.mem_filter.mp mem).1)
  refine ⟨.join parts, by rw [exports_eq_mapM, all]; rfl, fun placed mem unmarked noDefault => ?_⟩
  obtain ⟨own, extracted⟩ := offered placed.2 (listed placed mem)
  have within : own ∈ parts := (Outcome.mem_of_mapM_eq_ok all own).mpr
    ⟨placed, List.mem_filter.mpr ⟨mem, by rw [isUnmarked, unmarked]; rfl⟩, extracted⟩
  have inside := Exports.infix_join within
  refine ⟨own, extracted, inside.1, inside.2, fun declaration declared => ?_,
    fun undeclared unsourced => ?_⟩
  · obtain ⟨own', extracted', accounts⟩ :=
      exists_accounts (targets placed.2 (listed placed mem) declaration declared)
        placed.2.line placed.2.column
    rw [Option.mem_def] at declared
    rw [exportsOfStatement, if_neg (by simp [noDefault]), declared] at extracted
    cases extracted'.symm.trans extracted
    exact accounts
  · rw [exportsOfStatement, if_neg (by simp [noDefault]), undeclared] at extracted
    refine ⟨exportsOfSpecifier program.symbolTable placed.2.line placed.2.column, ?_, ?_⟩
    · rw [← Except.ok.inj extracted, exportsOfClauses_eq, unsourced]
      rfl
    · rintro specifier _ localName found resolves exported spelled nonempty
      exact exportsOfSpecifier_eq found resolves spelled nonempty

/-- A program in which a pattern and a plain value stand between arrow functions, and a list that
exports one of these as the default. -/
def sideBySide : Node :=
  (Program.parse .typescript (Text.encode
    "export const a = (() => 1), { b } = a, d = () => 2\nexport { d as default }")).root

/-- Both arrow functions and the pattern are reported, and so is the item of the list. -/
theorem exports_conserved_mixed :
    ∃ exports, sideBySide.exports "test-ignore" = .ok exports ∧
      (∃ placed ∈ sideBySide.placedExports, ∃ own,
        placed.2.exportsOfStatement sideBySide.symbolTable = .ok own ∧
        own.unchecked <:+: exports.unchecked ∧
        own.functions.map (·.name) ++ own.labels "multi-declarator export" = ["a", "d"] ∧
        own.labels "destructured export" = ["{ b }"]) ∧
      ∃ placed ∈ sideBySide.placedExports, ∃ localName entry,
        placed.2.exportsOfStatement sideBySide.symbolTable
          = .ok (.join (placed.2.specifiers.map entry)) ∧
        ∃ specifier ∈ placed.2.specifiers,
          entry specifier = placed.2.listedEntry localName "default" := by
  obtain ⟨targets, declares, lists⟩ :
      (∀ statement ∈ sideBySide.exportStatements, ∀ declaration ∈ statement.child? "declaration",
        ∀ declarator ∈ declaration.declarators, declarator.HasTarget) ∧
      (∃ placed ∈ sideBySide.placedExports,
        placed.2.isMarked "test-ignore" placed.1 = false ∧ placed.2.isDefaultExport = false ∧
        ∃ declaration ∈ placed.2.child? "declaration", declaration.callableNames = ["a", "d"] ∧
          declaration.patterns.map (·.text) = ["{ b }"]) ∧
      ∃ placed ∈ sideBySide.placedExports,
        placed.2.isMarked "test-ignore" placed.1 = false ∧ placed.2.isDefaultExport = false ∧
        placed.2.child? "declaration" = none ∧ placed.2.child? "source" = none ∧
        ∃ specifier ∈ placed.2.specifiers, ∃ localName ∈ specifier.child? "name",
          sideBySide.ResolvesToFunction localName.spelledName ∧
          ((specifier.child? "alias").getD localName).spelledName = "default" := by
    decide +kernel
  obtain ⟨exports, extracted, conserved⟩ := exports_conserved "test-ignore" targets
  generalize sideBySide = program at *
  refine ⟨exports, extracted, ?_, ?_⟩
  · obtain ⟨placed, mem, unmarked, noDefault, declaration, declared, names, texts⟩ := declares
    obtain ⟨own, offered, _, inside, accounts, _⟩ := conserved placed mem unmarked noDefault
    have accounts := accounts declaration declared
    exact ⟨placed, mem, own, offered, inside, accounts.callable.trans names,
      accounts.taken.trans texts⟩
  · obtain ⟨placed, mem, unmarked, noDefault, undeclared, unsourced, specifier, listed, localName,
      found, resolves, spelled⟩ := lists
    obtain ⟨own, offered, _, _, _, items⟩ := conserved placed mem unmarked noDefault
    obtain ⟨entry, rfl, entries⟩ := items undeclared unsourced
    exact ⟨placed, mem, localName, entry, offered, specifier, listed,
      entries specifier listed localName found resolves "default" spelled (by decide)⟩

end Node

end ExportCover
