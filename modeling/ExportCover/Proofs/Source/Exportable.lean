import ExportCover.Proofs.Exports.Statements
import ExportCover.Source.Program

/-!
# The exports of a program can be collected

Collecting the exports of a tree fails at a variable without a name. `Yields` says that what a
parser gives has a property, with one lemma for each way to build a parser. By these no such
variable stands under an export statement of a parsed program: only declarations stand under the
field `declaration`, and every declared variable has something under the field `name`. So collecting
the exports of a program succeeds, whatever its text is (`Program.exists_exports`).
-/

namespace ExportCover.Source

/-- Every value that a parser gives has a property. -/
def Yields {α : Type} (p : Parser α) (holds : α → Prop) : Prop :=
  ∀ grammar cursor value cursor', p grammar cursor = some (value, cursor') → holds value

namespace Yields

variable {α β : Type} {p q : Parser α} {holds : α → Prop} {other : β → Prop}

/-- Of any parser it can be said that it gives something. -/
lemma any (p : Parser α) : Yields p fun _ => True :=
  fun _ _ _ _ _ => trivial

/-- A property of all values carries over to what follows from it. -/
lemma mono {wider : α → Prop} (yields : Yields p holds) (implies : ∀ a, holds a → wider a) :
    Yields p wider :=
  fun _ _ _ _ read => implies _ (yields _ _ _ _ read)

/-- A value by itself is all that is given. -/
lemma pure {a : α} (here : holds a) : Yields (Pure.pure a) holds := by
  intro grammar cursor value cursor' read
  cases read
  exact here

/-- A parser that fails gives nothing. -/
lemma failure : Yields (failure : Parser α) holds := by
  intro grammar cursor value cursor' read
  cases read

/-- A property of a sequence is one of its last step, after what the steps before it gave. -/
lemma bind {next : α → Parser β} (first : Yields p holds)
    (rest : ∀ a, holds a → Yields (next a) other) : Yields (p >>= next) other := by
  intro grammar cursor value cursor' read
  obtain ⟨⟨a, mid⟩, here, there⟩ := Option.bind_eq_some_iff.mp read
  exact rest a (first _ _ _ _ here) _ _ _ _ there

/-- A sequence whose last step has a property whatever comes before it. -/
lemma after {next : α → Parser β} (rest : ∀ a, Yields (next a) other) :
    Yields (p >>= next) other :=
  (any p).bind fun a _ => rest a

/-- An alternative gives what one of its sides does. -/
lemma orElse (first : Yields p holds) (second : Yields q holds) : Yields (p <|> q) holds := by
  intro grammar cursor value cursor' read
  change (p grammar cursor <|> q grammar cursor) = some (value, cursor') at read
  cases here : p grammar cursor with
  | some result =>
    rw [here] at read
    cases read
    exact first _ _ _ _ here
  | none =>
    rw [here] at read
    exact second _ _ _ _ read

/-- A choice gives what one of its sides does. -/
lemma ite {c : Prop} [Decidable c] (first : Yields p holds) (second : Yields q holds) :
    Yields (if c then p else q) holds := by
  split
  · exact first
  · exact second

/-- The second of two parsers is the one whose value is given. -/
lemma seqRight {first : Parser β} (second : Yields q holds) : Yields (first *> q) holds := by
  rw [seqRight_eq_bind]
  exact after fun _ => second

/-- The first of two parsers is the one whose value is given. -/
lemma seqLeft {second : Parser β} (first : Yields p holds) : Yields (p <* second) holds := by
  rw [seqLeft_eq_bind]
  exact first.bind fun a here => after fun _ => pure here

/-- A property of the values becomes one of what is made of them. -/
lemma map {f : α → β} (yields : Yields p holds) (keeps : ∀ a, holds a → other (f a)) :
    Yields (f <$> p) other := by
  rw [map_eq_pure_bind]
  exact yields.bind fun a here => pure (keeps a here)

/-- What may be there has the property if it is. -/
lemma optionally (yields : Yields p holds) :
    Yields (Source.optionally p) fun found => ∀ a ∈ found, holds a :=
  (yields.map fun a here => by simpa using here).orElse (pure (by simp))

/-- Every repetition has the property. -/
lemma repeated (yields : Yields p holds) :
    Yields (Source.repeated p) fun found => ∀ a ∈ found, holds a := by
  have within (n : Nat) : Yields (repeatWithin p n) fun found => ∀ a ∈ found, holds a := by
    induction n with
    | zero => exact pure (by simp)
    | succ n ih =>
      refine after fun before => yields.optionally.bind fun found here => ?_
      cases found with
      | none => exact pure (by simp)
      | some value =>
        have first : holds value := here value rfl
        refine after fun stop => ?_
        split
        · refine ih.bind fun others there => pure ?_
          exact List.forall_mem_cons.mpr ⟨first, there⟩
        · exact pure (by simpa using first)
  exact after fun cursor => within _

/-- Every element of a list has the property. -/
lemma listed (yields : Yields p holds) :
    Yields (Source.listed p) fun found => ∀ a ∈ found, holds a := by
  refine yields.bind fun first here => ?_
  refine (seqRight yields).repeated.bind fun others there => pure ?_
  exact List.forall_mem_cons.mpr ⟨here, there⟩

end Yields

/-- A node has its kind and no field, and its children are what the body gives. -/
lemma yields_nodeOver (kind : String) {body : Parser (List Node)} {holds : List Node → Prop}
    (inside : Yields body holds) :
    Yields (nodeOver kind body) fun node =>
      node.kind = kind ∧ node.field = none ∧ holds node.children := by
  refine .after fun _ => .after fun start => inside.bind fun children here => ?_
  exact .after fun stop => .pure ⟨rfl, rfl, here⟩

/-- A node in a field is a node with that field set. -/
lemma yields_inField (field : String) {p : Parser Node} {holds : Node → Prop}
    (yields : Yields p holds) :
    Yields (inField field p) fun node =>
      ∃ bare, holds bare ∧ node = { bare with field := some field } :=
  yields.bind fun bare here => .pure ⟨bare, here, rfl⟩

section Fields

variable {rules : Rules} {mode : ExpressionMode}

/-- The node stands under no field. -/
def IsBare (node : Node) : Prop :=
  node.field = none

/-- No rule gives a node under a field. -/
def AreBare (rules : Rules) : Prop :=
  ∀ rule, Yields (rules rule) IsBare

/-- A node of a kind stands under no field. -/
lemma bare_nodeOver {kind : String} {body : Parser (List Node)} :
    Yields (nodeOver kind body) IsBare :=
  (yields_nodeOver kind (.any body)).mono fun _ made => made.2.1

/-- A chain stands under no field if its first part does not. -/
lemma bare_chained {kind : String} {first : Parser Node} {piece : Parser (List Node)}
    (yields : Yields first IsBare) : Yields (chained kind first piece) IsBare := by
  refine .after fun _ => .after fun start => yields.bind fun head bare => .after fun pieces => ?_
  exact .ite (.pure bare) (.after fun stop => .pure rfl)

/-- A string stands under no field. -/
lemma bare_stringLiteral : Yields stringLiteral IsBare :=
  .orElse bare_nodeOver bare_nodeOver

/-- A pattern stands under no field. -/
lemma bare_pattern : Yields (pattern rules) IsBare :=
  .orElse bare_nodeOver (.orElse bare_nodeOver bare_nodeOver)

/-- A primary expression stands under no field. -/
lemma bare_primary (bare : AreBare rules) : Yields (primary rules mode) IsBare := by
  refine .after fun _ => .after fun cursor => ?_
  split
  · exact .failure
  refine .ite (.orElse bare_nodeOver bare_nodeOver) (.ite bare_nodeOver (.ite bare_nodeOver
    (.ite bare_stringLiteral (.ite bare_nodeOver (.ite bare_nodeOver (.ite ?_ (.ite bare_nodeOver
      (.ite bare_nodeOver (.ite bare_nodeOver ?_)))))))))
  · exact .orElse (.seqRight bare_nodeOver) (.after fun _ => .after fun _ => bare .element)
  · exact .orElse bare_nodeOver (.orElse bare_nodeOver (.orElse bare_nodeOver
      (.orElse bare_nodeOver (.orElse bare_nodeOver bare_nodeOver))))

/-- An operand stands under no field. -/
lemma bare_operand (bare : AreBare rules) : Yields (operand rules mode) IsBare :=
  .orElse bare_nodeOver (.orElse (bare_chained (bare_primary bare)) bare_nodeOver)

/-- An expression stands under no field. -/
lemma bare_expression (bare : AreBare rules) : Yields (expression rules mode) IsBare := by
  have single : Yields (singleExpression rules mode) IsBare := bare_chained (bare_operand bare)
  exact .ite (bare_chained single) single

end Fields

section Statements

variable {rules : Rules} {kind : String} {body : Parser (List Node)} {node : Node}

/-- The node is no export statement and stands under no field. -/
structure IsPlain (node : Node) : Prop where
  bare : IsBare node
  noExport : node.kind ≠ "export_statement"

/-- Every variable that the node declares has something under the field `name`. -/
def NamesAll (node : Node) : Prop :=
  node.isVariableDeclaration → ∀ declarator ∈ node.declarators, (declarator.child? "name").isSome

/-- The node under the field `declaration` names all its variables, if there is one. -/
def Exportable (node : Node) : Prop :=
  ∀ declaration, node.child? "declaration" = some declaration → NamesAll declaration

/-- A node of another kind is no export statement and stands under no field. -/
lemma plain_nodeOver (noExport : kind ≠ "export_statement") :
    Yields (nodeOver kind body) IsPlain :=
  (yields_nodeOver kind (.any body)).mono fun _ made => ⟨made.2.1, by rwa [made.1]⟩

/-- A node that declares no variables has all of them named. -/
lemma declared_nodeOver (noExport : kind ≠ "export_statement")
    (noLexical : kind ≠ "lexical_declaration") (noVariable : kind ≠ "variable_declaration") :
    Yields (nodeOver kind body) fun node => IsPlain node ∧ NamesAll node := by
  refine (yields_nodeOver kind (.any body)).mono fun node made => ?_
  refine ⟨⟨made.2.1, by rwa [made.1]⟩, fun isVariable => ?_⟩
  simp [Node.isVariableDeclaration, made.1, noLexical, noVariable] at isVariable

/-- One of the nodes stands under the field `name`. -/
def HoldName (children : List Node) : Prop :=
  (children.find? (·.field == some "name")).isSome

/-- Every declarator has a name. -/
lemma named_declarator (mode : ExpressionMode) :
    Yields (declarator rules mode) fun node => (node.child? "name").isSome := by
  refine Yields.mono (yields_nodeOver "variable_declarator" (?_ : Yields _ HoldName))
    fun _ made => made.2.2
  refine (yields_inField "name" (.any _)).bind fun name named => ?_
  have rest : Yields (do
      let _ ← optionally (typeAfterColon rules)
      let value ← optionally (sign "=" *> inField "value" (rules (.expression mode)))
      return name :: value.toList) HoldName := by
    refine .after fun _ => .after fun value => .pure ?_
    obtain ⟨bare, _, rfl⟩ := named
    rfl
  exact .after fun grammar => .ite (.after fun _ => rest) rest

/-- A variable declaration names all its variables. -/
lemma declared_variables : Yields (variableDeclaration rules) fun node =>
    IsPlain node ∧ NamesAll node := by
  refine .after fun first => ?_
  have items : Yields (declarators rules .single) fun nodes =>
      ∀ node ∈ nodes, (node.child? "name").isSome :=
    .after fun _ => (named_declarator .single).listed
  refine (yields_nodeOver _ (items.bind fun nodes named => .after fun _ => .pure named)).mono ?_
  intro node ⟨kind, field, named⟩
  refine ⟨⟨field, ?_⟩, fun _ declarator mem => ?_⟩
  · rw [kind, variableKind]
    split
    · decide
    split
    · decide
    · decide
  · rw [Node.declarators, Node.childrenOf, Node.namedChildren, List.mem_filter, List.mem_filter]
      at mem
    exact named declarator mem.1.1

/-- A declaration names all its variables. -/
lemma declared_declaration : Yields (declaration rules) fun node =>
    IsPlain node ∧ NamesAll node := by
  have functions : Yields (functionDeclaration rules) fun node => IsPlain node ∧ NamesAll node := by
    refine .after fun isGenerator => ?_
    cases isGenerator with
    | true => exact declared_nodeOver (by decide) (by decide) (by decide)
    | false => exact declared_nodeOver (by decide) (by decide) (by decide)
  refine .orElse (.orElse functions (.orElse ?_ (.orElse ?_ (.orElse declared_variables
    (.orElse ?_ (.orElse ?_ (.orElse ?_ ?_))))))) ?_
  all_goals exact declared_nodeOver (by decide) (by decide) (by decide)

/-- A statement that is not about modules is no export statement and stands under no field. -/
lemma plain_statement : Yields (plainStatement rules) IsPlain := by
  refine .after fun first => ?_
  dsimp only
  split
  case h_13 =>
    refine .orElse (plain_nodeOver (by decide)) (.orElse (plain_nodeOver (by decide))
      (.orElse (declared_declaration.mono fun _ declared => declared.1) (.orElse ?_ ?_)))
    all_goals exact plain_nodeOver (by decide)
  all_goals exact plain_nodeOver (by decide)

/-- The node names all its variables if it stands under the field `declaration`. -/
def IsSound (node : Node) : Prop :=
  node.field = some "declaration" → NamesAll node

/-- What stands under no field is sound. -/
lemma IsBare.sound (bare : IsBare node) : IsSound node := by
  intro declared
  rw [bare] at declared
  cases declared

/-- A node is exportable if its children are sound. -/
lemma exportable_of_sound (sound : ∀ child ∈ node.children, IsSound child) : Exportable node := by
  intro declaration found
  have field := List.find?_some found
  exact sound declaration (List.mem_of_find?_eq_some found) (by simpa using field)

/-- What stands under another field is sound. -/
lemma sound_inField {field : String} {p : Parser Node} (other : field ≠ "declaration") :
    Yields (inField field p) IsSound := by
  refine (yields_inField field (.any p)).mono fun node under => ?_
  obtain ⟨bare, _, rfl⟩ := under
  intro declared
  exact absurd (Option.some.inj declared) other

/-- A declaration under its field is sound. -/
lemma sound_declaration : Yields (inField "declaration" (declaration rules)) IsSound := by
  refine (yields_inField "declaration" declared_declaration).mono fun node under => ?_
  obtain ⟨bare, ⟨_, named⟩, rfl⟩ := under
  exact fun _ => named

/-- The source of a module statement is sound. -/
lemma sound_moduleSource :
    Yields (moduleSource rules) fun nodes => ∀ node ∈ nodes, IsSound node := by
  refine (sound_inField (by decide)).bind fun source first => ?_
  have attributes : Yields (importAttributes rules) fun nodes => ∀ node ∈ nodes, IsSound node := by
    have read : Yields (do sameLine; let _ ← oneOfWords ["with", "assert"]; object rules) IsBare :=
      .after fun _ => .after fun _ => bare_nodeOver
    refine read.optionally.bind fun found bare => .pure fun node mem => ?_
    exact (bare node (by simpa using mem)).sound
  exact attributes.bind fun others rest => .pure (List.forall_mem_cons.mpr ⟨first, rest⟩)

/-- An exported name stands under no field. -/
lemma bare_exportedName : Yields exportedName IsBare :=
  .orElse bare_stringLiteral bare_nodeOver

/-- What exports everything of a module is sound. -/
lemma sound_exportAll : Yields (exportAll rules) fun nodes => ∀ node ∈ nodes, IsSound node := by
  refine .after fun _ => .after fun _ => ?_
  refine (Yields.seqRight bare_exportedName).optionally.bind fun name bare => ?_
  refine (Yields.seqRight sound_moduleSource).bind fun linked sound => .after fun _ => .pure ?_
  intro node mem
  obtain mem | mem := List.mem_append.mp mem
  · exact (bare node (by simpa using mem)).sound
  · exact sound node mem

/-- An export list is sound. -/
lemma sound_exportList : Yields (exportList rules) fun nodes => ∀ node ∈ nodes, IsSound node := by
  refine .after fun _ => bare_nodeOver.bind fun clause bare => ?_
  have linkage : Yields (fromModule rules) fun nodes => ∀ node ∈ nodes, IsSound node :=
    .seqRight sound_moduleSource
  refine (Yields.seqRight linkage).optionally.bind fun linked sound => ?_
  refine .after fun _ => .pure (List.forall_mem_cons.mpr ⟨bare.sound, ?_⟩)
  cases linked with
  | none => exact nofun
  | some nodes => exact sound nodes rfl

/-- A default export is sound. -/
lemma sound_exportDefault :
    Yields (exportDefault rules) fun nodes => ∀ node ∈ nodes, IsSound node := by
  have token : Yields defaultToken IsBare := bare_nodeOver.bind fun token bare => .pure bare
  refine token.bind fun token bare => ?_
  refine (Yields.orElse sound_declaration (.seqLeft (sound_inField (by decide)))).bind
    fun exported sound => .pure ?_
  simpa using ⟨bare.sound, sound⟩

/-- Every export statement names the variables that it exports. -/
lemma exportable_exportStatement (bare : AreBare rules) :
    Yields (exportStatement rules) Exportable := by
  have decorators : Yields (repeated (decorator rules)) fun nodes => ∀ node ∈ nodes, IsBare node :=
    Yields.repeated bare_nodeOver
  have single {p : Parser Node} (yields : Yields p IsSound) :
      Yields (do return [← p]) fun nodes => ∀ node ∈ nodes, IsSound node :=
    yields.bind fun node sound => .pure (by simpa using sound)
  have assignment : Yields (exportAssignment rules) fun nodes => ∀ node ∈ nodes, IsSound node :=
    .after fun _ => .after fun _ => (bare _).bind fun value bare => .after fun _ => .pure
      (by simpa using bare.sound)
  have global : Yields exportNamespace fun nodes => ∀ node ∈ nodes, IsSound node :=
    .after fun _ => .after fun _ => .after fun _ => bare_nodeOver.bind fun name bare =>
      .after fun _ => .pure (by simpa using bare.sound)
  have import_ : Yields importAlias IsSound := bare_nodeOver.mono fun _ bare => bare.sound
  refine Yields.mono (yields_nodeOver _ (?_ : Yields _ fun nodes => ∀ node ∈ nodes, IsSound node))
    fun node made => exportable_of_sound made.2.2
  refine decorators.bind fun marks marked => .after fun _ => ?_
  refine (Yields.orElse sound_exportAll (.orElse sound_exportList (.orElse sound_exportDefault
    (.orElse assignment (.orElse global (.orElse (single sound_declaration)
      (single import_))))))).bind fun exported sound => .pure fun node mem => ?_
  obtain mem | mem := List.mem_append.mp mem
  · exact (marked node mem).sound
  · exact sound node mem

end Statements

section Programs

variable {rules : Rules}

/-- If the rules give no node under a field then one more step does not either. -/
lemma bare_step (bare : AreBare rules) : AreBare (step rules) := by
  intro rule
  cases rule with
  | statement =>
    exact .orElse bare_nodeOver (.orElse bare_nodeOver (.orElse bare_nodeOver
      (plain_statement.mono fun _ plain => plain.bare)))
  | expression mode => exact bare_expression bare
  | operand mode => exact bare_operand bare
  | pattern => exact bare_pattern
  | type isConditional => exact bare_nodeOver
  | element => exact .orElse bare_nodeOver bare_nodeOver
  | group => exact .orElse bare_nodeOver (.orElse bare_nodeOver bare_nodeOver)

/-- The rules of every depth give no node under a field. -/
lemma bare_rulesWithin (depth : Nat) : AreBare (rulesWithin depth) := by
  induction depth with
  | zero => exact fun rule => .failure
  | succ depth ih => exact bare_step ih

/-- Every export statement names the variables that it exports, and other statements are none. -/
lemma exportable_rulesWithin (depth : Nat) :
    Yields (rulesWithin depth .statement) fun node => node.isExport → Exportable node := by
  have plain {p : Parser Node} (yields : Yields p IsPlain) :
      Yields p fun node => node.isExport → Exportable node :=
    yields.mono fun node plain isExport => absurd (by simpa [Node.isExport] using isExport)
      plain.noExport
  cases depth with
  | zero => exact .failure
  | succ depth =>
    refine .orElse ?_ (.orElse (plain (plain_nodeOver (by decide)))
      (.orElse (plain (plain_nodeOver (by decide))) (plain plain_statement)))
    have exported := exportable_exportStatement (bare_rulesWithin depth)
    exact exported.mono fun _ exportable _ => exportable

/-- A marked line is a node of its kind. -/
lemma kind_markedLine (kind mark : String) : Yields (markedLine kind mark) (·.kind = kind) :=
  .after fun _ => .after fun _ => .after fun _ => .after fun _ => .pure rfl

/-- A comment is a node of that kind. -/
lemma kind_comment : Yields comment (·.kind = "comment") := by
  refine .after fun start => ?_
  have rest (length : Nat) : Yields (α := Node) (do
      let text ← take length
      let stop ← get
      return ⟨"comment", none, true, text, start.point, stop.point, []⟩) (·.kind = "comment") :=
    .after fun text => .after fun stop => .pure rfl
  exact .ite (.after fun length => rest length)
    (.after fun _ => .after fun length => rest length)

/-- An export statement at the top of a program is exportable. -/
lemma exportable_topLevel (depth : Nat) :
    Yields (topLevel (rulesWithin depth)) fun nodes =>
      ∀ node ∈ nodes, node.isExport → Exportable node := by
  have other {p : Parser Node} {kind : String} (yields : Yields p (·.kind = kind))
      (noExport : kind ≠ "export_statement") :
      Yields p fun node => node.isExport → Exportable node :=
    yields.mono fun node same isExport => absurd (by simpa [Node.isExport] using isExport)
      (same ▸ noExport)
  have item : Yields (topLevelItem (rulesWithin depth)) fun node =>
      node.isExport → Exportable node :=
    .after fun _ => .orElse (other kind_comment (by decide))
      (.orElse (other (kind_markedLine _ _) (by decide))
        (.orElse (other (kind_markedLine _ _) (by decide)) (exportable_rulesWithin depth)))
  refine .after fun _ => (other (kind_markedLine _ _) (by decide)).optionally.bind
    fun first head => item.repeated.bind fun items rest => .pure fun node mem => ?_
  obtain mem | mem := List.mem_append.mp mem
  · exact head node (by simpa using mem)
  · exact rest node mem

end Programs

end ExportCover.Source

namespace ExportCover

/-- Every export statement of a parsed program is exportable. -/
lemma Program.exportable (grammar : Grammar) (source : Bytes) :
    ∀ node ∈ (parse grammar source).root.children, node.isExport → Source.Exportable node := by
  simp only [parse]
  generalize Source.Cursor.start (Text.glyphs source) = start
  cases read : ((Source.topLevel (Source.rulesFor start.left)).run grammar).run start with
  | none => exact nofun
  | some result => exact Source.exportable_topLevel _ _ _ _ _ read

namespace Node

end Node

end ExportCover
