import ExportCover.Proofs.Exports.Lowering
import ExportCover.Proofs.Exports.Marker

/-!
# Exempting one export

A comment with the marker is put on a row of its own above an export statement, and everything from
the statement on moves one row down. Then the program offers what it offered, the statement's own
exports left out and what comes after them reported one line further down (`Node.exports_silenced`).
What other statements offer is not touched: the comment binds nothing, and whether a later statement
has a marker above it is decided by rows of nodes that moved together.
-/

namespace ExportCover.Node

/-- The node is a comment in this row and no other, and the marker stands in it. -/
structure MarksRow (comment : Node) (marker : String) (row : Nat) : Prop where
  named : comment.named
  isComment : comment.kind = "comment"
  starts : comment.start.row = row
  stops : comment.stop.row = row
  holds : marker.toList <:+: comment.text.toList

/-- What a statement offers, given with the siblings before it; nothing if a marker is above it. -/
def exportsAt (marker : String) (symbols : SymbolTable) (placed : List Node × Node) :
    Except Fault Exports :=
  if placed.2.isMarked marker placed.1 then .ok Exports.none
  else placed.2.exportsOfStatement symbols

/-- What the export statements among siblings offer together. `preceding` are the siblings before
all of them, the nearest first. -/
def exportsAmong (marker : String) (symbols : SymbolTable) (preceding siblings : List Node) :
    Except Fault Exports :=
  Exports.join <$> ((withPreceding preceding siblings).filter fun placed =>
    placed.2.isExport && placed.2.named).mapM (exportsAt marker symbols)

variable {program edited statement comment : Node} {before after preceding : List Node}
  {marker : String} {symbols : SymbolTable}

/-! ## Statement by statement -/

/-- Collected parts start with the first of them, unless it fails. -/
lemma join_mapM_cons {α : Type} (outcome : α → Except Fault Exports) (a : α) (rest : List α) :
    Exports.join <$> (a :: rest).mapM outcome = (do
      let own ← outcome a
      let others ← Exports.join <$> rest.mapM outcome
      return own ++ others) := by
  rw [List.mapM_cons]
  cases outcome a with
  | error fault => rfl
  | ok own =>
    cases rest.mapM outcome with
    | error fault => rfl
    | ok others => rfl

/-- A statement with a marker above it may as well offer nothing. -/
lemma join_mapM_exportsAt (placed : List (List Node × Node)) :
    Exports.join <$> placed.mapM (exportsAt marker symbols)
      = Exports.join <$> (placed.filter (isUnmarked marker)).mapM fun placed =>
        placed.2.exportsOfStatement symbols := by
  induction placed with
  | nil => rfl
  | cons first rest ih =>
    rw [join_mapM_cons, exportsAt, ih, List.filter_cons, isUnmarked]
    cases first.2.isMarked marker first.1 with
    | true =>
      rw [if_pos rfl, Outcome.ok_bind]
      exact bind_pure (m := Except Fault) _
    | false =>
      rw [if_neg Bool.false_ne_true, Bool.not_false, if_pos rfl]
      exact (join_mapM_cons (fun placed => exportsOfStatement placed.2 symbols) first _).symm

/-- The exports of a program are those among its children. -/
lemma exports_eq_exportsAmong (program : Node) (marker : String) :
    program.exports marker = exportsAmong marker program.symbolTable [] program.children := by
  rw [exports_eq_mapM, ← join_mapM_exportsAt, placedExports, placedChildren, List.filter_filter]
  rfl

/-- Siblings that start with an export statement offer what it exports first. -/
lemma exportsAmong_cons_export (isExport : statement.isExport) (named : statement.named)
    (siblings : List Node) :
    exportsAmong marker symbols preceding (statement :: siblings) = (do
      let own ← exportsAt marker symbols (preceding, statement)
      let back ← exportsAmong marker symbols (statement :: preceding) siblings
      return own ++ back) := by
  rw [exportsAmong, withPreceding, List.filter_cons_of_pos (by simp [named, isExport]),
    join_mapM_cons]
  rfl

/-- A sibling that is no export statement offers nothing, and it stands above the others. -/
lemma exportsAmong_cons_other (other : (statement.isExport && statement.named) = false)
    (siblings : List Node) :
    exportsAmong marker symbols preceding (statement :: siblings)
      = exportsAmong marker symbols (statement :: preceding) siblings := by
  rw [exportsAmong, withPreceding, List.filter_cons_of_neg (by simp [other])]
  rfl

/-- What siblings offer can be collected up to one of them and on from there. -/
lemma exportsAmong_append (front siblings : List Node) :
    exportsAmong marker symbols preceding (front ++ siblings) = (do
      let first ← exportsAmong marker symbols preceding front
      let back ← exportsAmong marker symbols (front.reverse ++ preceding) siblings
      return first ++ back) := by
  induction front generalizing preceding with
  | nil => exact (bind_pure _).symm
  | cons node rest ih =>
    rw [List.cons_append, List.reverse_cons, List.append_assoc]
    cases other : node.isExport && node.named with
    | true =>
      obtain ⟨isExport, named⟩ := Bool.and_eq_true_iff.mp other
      rw [exportsAmong_cons_export isExport named, exportsAmong_cons_export isExport named, ih]
      simp only [bind_assoc, pure_bind, Exports.append_assoc]
      rfl
    | false => rw [exportsAmong_cons_other other, exportsAmong_cons_other other, ih]; rfl

/-! ## The statements after the comment -/

/-- The comment above a node is found among the siblings after an export statement. It does not
matter what stands before that statement, and the rows may all be moved. -/
lemma commentAbove?_lowered {preceding' : List Node} (isExport : statement.isExport)
    (named : statement.named) (between : List Node) (node : Node) :
    commentAbove? (between.map lowered ++ statement.lowered :: preceding') node.lowered
      = (commentAbove? (between ++ statement :: preceding) node).map lowered := by
  have noComment : statement.kind ≠ "comment" := by
    rw [Node.isExport, beq_iff_eq] at isExport
    simp [isExport]
  -- The search leaves out tokens and gets no further than the statement, which is no comment.
  have tokens : (between.map lowered).dropWhile (!·.named)
      = (between.dropWhile (!·.named)).map lowered := by
    rw [List.dropWhile_map]
    simp only [Function.comp_def, named_lowered]
  rw [commentAbove?, commentAbove?, List.dropWhile_append, List.dropWhile_append, tokens]
  cases between.dropWhile (!·.named) with
  | nil => simp [named, noComment]
  | cons nearest earlier =>
    have before : (earlier.map lowered ++ statement.lowered :: preceding').head?
        = (earlier ++ statement :: preceding).head?.map lowered := by
      cases earlier with
      | nil => rfl
      | cons first rest => rfl
    have rows : (earlier.map lowered ++ statement.lowered :: preceding').head?.all
          (fun before => before.stop.row < nearest.lowered.start.row)
        = (earlier ++ statement :: preceding).head?.all
          fun before => before.stop.row < nearest.start.row := by
      rw [before]
      cases (earlier ++ statement :: preceding).head? with
      | none => rfl
      | some node => simp [stop_lowered, Point.lowered]
    have close : (node.lowered.start.row ≤ nearest.lowered.stop.row + 1)
        = (node.start.row ≤ nearest.stop.row + 1) := by
      simp [stop_lowered, Point.lowered]
    simp only [List.map_cons, List.isEmpty_cons, Bool.false_eq_true, if_false, List.cons_append,
      kind_lowered, rows, close]
    split
    · rfl
    · rfl

/-- A statement behind a lowered one exports what it did, one line further down. -/
lemma exportsAt_lowered {preceding' : List Node} (isExport : statement.isExport)
    (named : statement.named) (between : List Node) (node : Node) :
    exportsAt marker symbols (between.map lowered ++ statement.lowered :: preceding', node.lowered)
      = Exports.lowered <$> exportsAt marker symbols (between ++ statement :: preceding, node) := by
  have marked : node.lowered.isMarked marker
        (between.map lowered ++ statement.lowered :: preceding')
      = node.isMarked marker (between ++ statement :: preceding) := by
    have above : commentAbove? (between.map lowered ++ statement.lowered :: preceding') node.lowered
        = (commentAbove? (between ++ statement :: preceding) node).map lowered :=
      commentAbove?_lowered isExport named between node
    rw [isMarked, isMarked, above, Option.any_map]
    simp only [text_lowered]
  rw [exportsAt, exportsAt, marked]
  split
  · rfl
  · exact exportsOfStatement_lowered symbols node

/-- What comes after an export statement offers the same when all of it moves down. -/
lemma exportsAmong_lowered {preceding' : List Node} (isExport : statement.isExport)
    (named : statement.named) (between siblings : List Node) :
    exportsAmong marker symbols (between.map lowered ++ statement.lowered :: preceding')
        (siblings.map lowered)
      = Exports.lowered
        <$> exportsAmong marker symbols (between ++ statement :: preceding) siblings := by
  -- With each sibling that is passed there is one more between the statement and the rest.
  induction siblings generalizing between with
  | nil => rfl
  | cons node rest ih =>
    have ih := ih (node :: between)
    rw [List.map_cons, List.cons_append, List.cons_append] at ih
    rw [List.map_cons]
    cases exported : node.isExport && node.named with
    | false =>
      have exported' : (node.lowered.isExport && node.lowered.named) = false := by
        rw [isExport_lowered, named_lowered, exported]
      rw [exportsAmong_cons_other exported, exportsAmong_cons_other exported', ih]
    | true =>
      obtain ⟨isExport', named'⟩ := Bool.and_eq_true_iff.mp exported
      have offered : exportsAt marker symbols
            (between.map lowered ++ statement.lowered :: preceding', node.lowered)
          = Exports.lowered
            <$> exportsAt marker symbols (between ++ statement :: preceding, node) :=
        exportsAt_lowered isExport named between node
      rw [exportsAmong_cons_export isExport' named',
        exportsAmong_cons_export ((isExport_lowered node).trans isExport')
          ((named_lowered node).trans named'), ih, offered]
      simp only [map_bind, bind_map_left, map_pure, Exports.lowered_append]

/-! ## The edited program -/

/-- A comment binds nothing, and declarations bind the same one row further down. -/
lemma topBindings_commented (split : program.children = before ++ statement :: after)
    (inserted : edited.children = before ++ comment :: (statement :: after).map lowered)
    (isComment : comment.kind = "comment") : edited.topBindings = program.topBindings := by
  have lower (nodes : List Node) :
      (((nodes.map lowered).filter (·.named)).filterMap declaration?).flatMap bindings
        = ((nodes.filter (·.named)).filterMap declaration?).flatMap bindings := by
    rw [filter_named_map_lowered, List.filterMap_map]
    simp only [Function.comp_def, declaration?_lowered]
    rw [← List.map_filterMap, List.flatMap_map]
    simp only [bindings_lowered]
  have nothing : (([comment].filter (·.named)).filterMap declaration?).flatMap bindings = [] := by
    have noExport : comment.isExport = false := by simp [isExport, isComment]
    cases named : comment.named with
    | false => simp [named]
    | true => simp [named, declaration?, noExport, bindings, isFunctionDeclaration,
        isVariableDeclaration, isComment]
  rw [topBindings, topBindings, namedChildren, namedChildren, split, inserted,
    List.append_cons before comment]
  simp only [List.filter_append, List.filterMap_append, List.flatMap_append]
  rw [lower, nothing, List.append_nil]

/-- The comment stands right above the statement once that has moved down. -/
lemma isMarked_commented (ordered : InOrder (before ++ [statement])) (nonempty : marker ≠ "")
    (clear : ∀ sibling ∈ before, sibling.stop.row ≠ statement.start.row)
    (marks : comment.MarksRow marker statement.start.row) :
    statement.lowered.isMarked marker (comment :: before.reverse) := by
  have alone : before.reverse.head?.all fun sibling => sibling.stop.row < comment.start.row := by
    rw [Option.all_eq_true]
    intro sibling nearest
    have mem := List.mem_reverse.mp (List.mem_of_mem_head? nearest)
    have above := Nat.lt_of_le_of_ne (ordered.row_le mem) (clear sibling mem)
    simpa [marks.starts] using above
  rw [isMarked_iff_exists nonempty]
  refine ⟨comment, commentAbove?_eq_some_iff.mpr ⟨before.reverse, ⟨[], rfl, marks.named, nofun⟩,
    marks.isComment, ?_, alone⟩, marks.holds⟩
  rw [start_lowered, marks.stops]
  exact Nat.le_refl _

/-- A comment with the marker on a row of its own above an export statement silences this statement
and no other one. All names stay bound to what they were bound to. The program offered what the
statements before it, the statement itself and those after it offer, and now it offers what the
statements before it and those after it offered, the latter one line further down. -/
theorem exports_silenced (split : program.children = before ++ statement :: after)
    (inserted : edited.children = before ++ comment :: (statement :: after).map lowered)
    (ordered : InOrder program.children) (isExport : statement.isExport) (named : statement.named)
    (clear : ∀ sibling ∈ before, sibling.stop.row ≠ statement.start.row)
    (nonempty : marker ≠ "") (marks : comment.MarksRow marker statement.start.row) :
    edited.symbolTable = program.symbolTable ∧
      program.exports marker = (do
        let front ← exportsAmong marker program.symbolTable [] before
        let own ← exportsAt marker program.symbolTable (before.reverse, statement)
        let back ← exportsAmong marker program.symbolTable (statement :: before.reverse) after
        return front ++ own ++ back) ∧
      edited.exports marker = (do
        let front ← exportsAmong marker program.symbolTable [] before
        let back ← exportsAmong marker program.symbolTable (statement :: before.reverse) after
        return front ++ back.lowered) := by
  have symbols : edited.symbolTable = program.symbolTable := by
    rw [symbolTable_eq, symbolTable_eq, topBindings_commented split inserted marks.isComment]
  have noExport : (comment.isExport && comment.named) = false := by
    simp [Node.isExport, marks.isComment]
  -- Once the statement has moved down the comment is the nearest rule above it.
  have silent : exportsAt marker program.symbolTable (comment :: before.reverse, statement.lowered)
      = .ok Exports.none := by
    rw [split] at ordered
    exact if_pos (isMarked_commented ordered.upTo nonempty clear marks)
  refine ⟨symbols, ?_, ?_⟩
  · rw [exports_eq_exportsAmong, split, exportsAmong_append, List.append_nil,
      exportsAmong_cons_export isExport named]
    simp only [bind_assoc, pure_bind, Exports.append_assoc]
  · have moved : exportsAmong marker program.symbolTable
          (statement.lowered :: comment :: before.reverse) (after.map lowered)
        = Exports.lowered
          <$> exportsAmong marker program.symbolTable (statement :: before.reverse) after :=
      exportsAmong_lowered isExport named [] after
    rw [exports_eq_exportsAmong, symbols, inserted, exportsAmong_append, List.append_nil,
      exportsAmong_cons_other noExport, List.map_cons,
      exportsAmong_cons_export ((isExport_lowered statement).trans isExport)
        ((named_lowered statement).trans named), silent, moved]
    simp only [Outcome.ok_bind, bind_map_left, bind_assoc, pure_bind]
    rfl

/-- A program that exports a function above its declaration too, under another name, and that has
another export behind the declaration in the same row. -/
def exportedTwice : Node :=
  (Program.parse .typescript (Text.encode
    "export { f as g };\nexport function f() {} export const h = () => 1")).root

/-- A comment with the usual marker in this row. -/
def markerLine (row : Nat) : Node :=
  ⟨"comment", none, true, "// test-ignore", ⟨row, 0⟩, ⟨row, 14⟩, []⟩

/-- Below the comment the declaration is silent. The function is still exported under its other
name, and the export behind the declaration is reported one line further down. -/
theorem exports_silenced_twice :
    ∃ before statement after, exportedTwice.children = before ++ statement :: after ∧
      exportedTwice.exports "test-ignore" = .ok ⟨[⟨"g", .reExported, 1, 1⟩,
        ⟨"f", .namedFunction, 2, 1⟩, ⟨"h", .arrowBinding, 2, 24⟩], []⟩ ∧
      exports { exportedTwice with
          children := before ++ markerLine statement.start.row
            :: (statement :: after).map lowered } "test-ignore"
        = .ok ⟨[⟨"g", .reExported, 1, 1⟩, ⟨"h", .arrowBinding, 3, 24⟩], []⟩ := by
  obtain ⟨statement, second, ordered, isExport, named, clear, offered, front, back⟩ :
      ∃ statement ∈ exportedTwice.children[1]?, InOrder exportedTwice.children ∧
        statement.isExport ∧ statement.named ∧
        (∀ sibling ∈ exportedTwice.children.take 1, sibling.stop.row ≠ statement.start.row) ∧
        exportedTwice.exports "test-ignore" = .ok ⟨[⟨"g", .reExported, 1, 1⟩,
          ⟨"f", .namedFunction, 2, 1⟩, ⟨"h", .arrowBinding, 2, 24⟩], []⟩ ∧
        exportsAmong "test-ignore" exportedTwice.symbolTable [] (exportedTwice.children.take 1)
          = .ok ⟨[⟨"g", .reExported, 1, 1⟩], []⟩ ∧
        exportsAmong "test-ignore" exportedTwice.symbolTable
            (statement :: (exportedTwice.children.take 1).reverse) (exportedTwice.children.drop 2)
          = .ok ⟨[⟨"h", .arrowBinding, 2, 24⟩], []⟩ := by decide +kernel
  generalize exportedTwice = program at *
  have split : program.children
      = program.children.take 1 ++ statement :: program.children.drop 2 := by
    obtain ⟨within, rfl⟩ := List.getElem?_eq_some_iff.mp second
    rw [← List.drop_eq_getElem_cons within, List.take_append_drop]
  have holds : "test-ignore".toList <:+: "// test-ignore".toList := by decide
  have marks : (markerLine statement.start.row).MarksRow "test-ignore" statement.start.row :=
    ⟨rfl, rfl, rfl, rfl, holds⟩
  let edited : Node := { program with
    children := program.children.take 1 ++ markerLine statement.start.row
      :: (statement :: program.children.drop 2).map lowered }
  have inserted : edited.children = program.children.take 1 ++ markerLine statement.start.row
    :: (statement :: program.children.drop 2).map lowered := rfl
  obtain ⟨_, _, silenced⟩ :=
    exports_silenced split inserted ordered isExport named clear (by decide) marks
  refine ⟨_, statement, _, split, offered, silenced.trans ?_⟩
  rw [front, back]
  rfl

end ExportCover.Node
