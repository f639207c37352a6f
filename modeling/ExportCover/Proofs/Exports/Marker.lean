import Mathlib.Data.List.Infix
import Mathlib.Tactic.Lemma
import ExportCover.Exports
import ExportCover.Source.Program

/-!
# Which comment exempts a statement

A comment with the marker exempts the export statement below it. Two siblings are looked at for
this: the nearest one before the statement that stands for a rule, and the one right before that.
If the siblings stand in the order of the text, these two decide about all of them
(`Node.isMarked_iff`): of the siblings before the comment the nearest one ends last.
-/

namespace ExportCover

/-- A place is not behind another one. -/
instance : LE Point :=
  ⟨fun a b => a.row < b.row ∨ a.row = b.row ∧ a.column ≤ b.column⟩

/-- The order of points can be computed. -/
instance (a b : Point) : Decidable (a ≤ b) :=
  inferInstanceAs (Decidable (_ ∨ _ ∧ _))

/-- A point that is not behind another is in no later row. -/
lemma Point.row_le {a b : Point} (notBehind : a ≤ b) : a.row ≤ b.row := by
  obtain above | ⟨same, _⟩ := notBehind
  · exact Nat.le_of_lt above
  · exact Nat.le_of_eq same

namespace Text

/-- The search for a part of a text is the search for an infix. -/
lemma hasInfix_iff (part l : List Char) : hasInfix part l ↔ part <:+: l := by
  induction l with
  | nil => rw [hasInfix, List.isEmpty_iff, List.infix_nil]
  | cons c rest ih => rw [hasInfix, Bool.or_eq_true, List.isPrefixOf_iff_prefix, ih,
      List.infix_cons_iff]

/-- A text contains another one if that one stands in it in one piece. -/
lemma contains_iff (s part : String) : contains s part ↔ part.toList <:+: s.toList :=
  hasInfix_iff _ _

end Text

namespace Node

/-- The siblings stand in the order of the text and do not overlap. -/
structure InOrder (siblings : List Node) : Prop where
  spans : ∀ node ∈ siblings, node.start ≤ node.stop
  apart : siblings.Pairwise fun a b => a.stop ≤ b.start

/-- Whether siblings are in order can be computed. -/
instance (siblings : List Node) : Decidable (InOrder siblings) :=
  decidable_of_iff ((∀ node ∈ siblings, node.start ≤ node.stop) ∧
    siblings.Pairwise fun a b => a.stop ≤ b.start)
    ⟨fun ⟨spans, apart⟩ => ⟨spans, apart⟩, fun ordered => ⟨ordered.spans, ordered.apart⟩⟩

/-- Of the siblings before a place, the nearest first, this one is the nearest that stands for a
rule, and `earlier` stand before it. -/
def NearestNamed (preceding : List Node) (nearest : Node) (earlier : List Node) : Prop :=
  ∃ between, preceding = between ++ nearest :: earlier ∧ nearest.named ∧
    ∀ sibling ∈ between, sibling.named = false

/-- The comment exempts the statement below it. It is the nearest sibling before the statement that
stands for a rule, and the marker stands in it. It ends in the row in which the statement starts or
in the row above, and no sibling before it ends in the row in which it starts. -/
structure Exempts (marker : String) (preceding : List Node) (statement comment : Node)
    (earlier : List Node) : Prop where
  nearest : NearestNamed preceding comment earlier
  isComment : comment.kind = "comment"
  holds : marker.toList <:+: comment.text.toList
  close : comment.stop.row = statement.start.row ∨ comment.stop.row + 1 = statement.start.row
  alone : ∀ sibling ∈ earlier, sibling.stop.row ≠ comment.start.row

variable {siblings preceding earlier : List Node} {statement comment : Node} {marker : String}

/-- What stands before an element of a list and the element itself are a part of the list. -/
lemma exists_of_mem_withPreceding {α : Type} {before l preceding : List α} {x : α}
    (mem : (preceding, x) ∈ withPreceding before l) :
    ∃ front back, l = front ++ x :: back ∧ preceding = front.reverse ++ before := by
  induction l generalizing before with
  | nil => cases mem
  | cons y rest ih =>
    obtain here | there := List.mem_cons.mp mem
    · cases here
      exact ⟨[], rest, rfl, rfl⟩
    · obtain ⟨front, back, rfl, rfl⟩ := ih there
      exact ⟨y :: front, back, rfl, by simp⟩

/-- Siblings up to a node are in order. -/
lemma InOrder.upTo {front back : List Node} {node : Node}
    (ordered : InOrder (front ++ node :: back)) : InOrder (front ++ [node]) := by
  rw [List.append_cons] at ordered
  exact ⟨fun other mem => ordered.spans other (List.mem_append_left _ mem),
    (List.pairwise_append.mp ordered.apart).1⟩

/-- A sibling starts in no row above the one in which a sibling before it ends. -/
lemma InOrder.row_le {front : List Node} {node sibling : Node}
    (ordered : InOrder (front ++ [node])) (mem : sibling ∈ front) :
    sibling.stop.row ≤ node.start.row :=
  Point.row_le ((List.pairwise_append.mp ordered.apart).2.2 sibling mem node (by simp))

/-- The nearest of the siblings before a node ends last, so that none of them ends in the row of the
node unless the nearest does. -/
lemma InOrder.head?_all_iff {node : Node} (ordered : InOrder (earlier.reverse ++ [node])) :
    earlier.head?.all (fun before => before.stop.row < node.start.row) ↔
      ∀ sibling ∈ earlier, sibling.stop.row ≠ node.start.row := by
  cases earlier with
  | nil => simp
  | cons nearest rest =>
    rw [List.head?_cons, Option.all_some, decide_eq_true_eq, List.forall_mem_cons]
    have within := ordered.row_le (List.mem_reverse.mpr List.mem_cons_self)
    constructor
    · intro above
      refine ⟨above.ne, fun sibling mem => ?_⟩
      rw [List.reverse_cons, List.append_assoc] at ordered
      have ends := ordered.upTo.row_le (List.mem_reverse.mpr mem)
      have spans := Point.row_le (ordered.spans nearest (by simp))
      omega
    · rintro ⟨notHere, _⟩
      exact Nat.lt_of_le_of_ne within notHere

/-- The nearest sibling that stands for a rule is found by leaving out tokens. -/
lemma dropWhile_eq_cons_iff :
    preceding.dropWhile (!·.named) = comment :: earlier ↔
      NearestNamed preceding comment earlier := by
  induction preceding with
  | nil => simp [NearestNamed]
  | cons node rest ih =>
    rw [List.dropWhile_cons]
    -- The first sibling is the nearest rule itself or a token in front of it.
    cases named : node.named with
    | true =>
      constructor
      · intro same
        cases same
        exact ⟨[], rfl, named, by simp⟩
      · rintro ⟨between, same, _, tokens⟩
        cases between with
        | nil => exact same
        | cons token between =>
          cases same
          cases named.symm.trans (tokens node List.mem_cons_self)
    | false =>
      refine ih.trans ?_
      constructor
      · rintro ⟨between, rfl, isNamed, tokens⟩
        exact ⟨node :: between, rfl, isNamed, List.forall_mem_cons.mpr ⟨named, tokens⟩⟩
      · rintro ⟨between, same, isNamed, tokens⟩
        cases between with
        | nil =>
          cases same
          cases named.symm.trans isNamed
        | cons token between =>
          cases same
          exact ⟨between, rfl, isNamed, (List.forall_mem_cons.mp tokens).2⟩

/-- The comment above a statement is the nearest named sibling before it, on the line above or on
its own and at the start of a line. -/
lemma commentAbove?_eq_some_iff :
    commentAbove? preceding statement = some comment ↔
      ∃ earlier, NearestNamed preceding comment earlier ∧ comment.kind = "comment" ∧
        statement.start.row ≤ comment.stop.row + 1 ∧
        earlier.head?.all fun before => before.stop.row < comment.start.row := by
  simp only [← dropWhile_eq_cons_iff]
  rw [commentAbove?]
  cases preceding.dropWhile (!·.named) with
  | nil => simp
  | cons nearest earlier =>
    dsimp only
    constructor
    · intro found
      split at found
      next fits =>
        cases found
        simp only [Bool.and_eq_true, beq_iff_eq, decide_eq_true_eq] at fits
        exact ⟨earlier, rfl, fits.1.1, fits.1.2, fits.2⟩
      next => cases found
    · rintro ⟨_, same, isComment, close, alone⟩
      cases same
      rw [if_pos (by simp [isComment, close, alone])]

/-- A marker that is no empty text exempts by the comment above a statement if it stands in it. -/
lemma isMarked_iff_exists (nonempty : marker ≠ "") :
    statement.isMarked marker preceding ↔
      ∃ comment, commentAbove? preceding statement = some comment ∧
        marker.toList <:+: comment.text.toList := by
  rw [isMarked, Bool.and_eq_true, bne_iff_ne, and_iff_right nonempty, Option.any_eq_true]
  simp only [Text.contains_iff]

/-- Among siblings in the order of the text a statement is exempt if and only if a comment exempts
it. That no sibling before the comment ends in its row is said of all of them. -/
theorem isMarked_iff (ordered : InOrder siblings)
    (placed : (preceding, statement) ∈ withPreceding [] siblings) (nonempty : marker ≠ "") :
    statement.isMarked marker preceding ↔
      ∃ comment earlier, Exempts marker preceding statement comment earlier := by
  obtain ⟨front, back, rfl, reversed⟩ := exists_of_mem_withPreceding placed
  have ordered : InOrder (preceding.reverse ++ [statement]) := by
    rw [reversed, List.append_nil, List.reverse_reverse]
    exact ordered.upTo
  rw [isMarked_iff_exists nonempty]
  simp only [commentAbove?_eq_some_iff]
  -- Up to the nearest sibling the order makes both tests exact.
  have bounds : ∀ {comment earlier}, NearestNamed preceding comment earlier →
      comment.stop.row ≤ statement.start.row ∧ InOrder (earlier.reverse ++ [comment]) := by
    rintro comment earlier ⟨between, rfl, _⟩
    refine ⟨ordered.row_le (by simp), ?_⟩
    rw [List.reverse_append, List.reverse_cons, List.append_assoc, List.append_assoc] at ordered
    exact ordered.upTo
  constructor
  · rintro ⟨comment, ⟨earlier, nearest, isComment, close, alone⟩, holds⟩
    obtain ⟨above, ordered⟩ := bounds nearest
    exact ⟨comment, earlier, nearest, isComment, holds, by omega, ordered.head?_all_iff.mp alone⟩
  · rintro ⟨comment, earlier, exempts⟩
    have ordered := (bounds exempts.nearest).2
    have close := exempts.close
    exact ⟨comment, ⟨earlier, exempts.nearest, exempts.isComment, by omega,
      ordered.head?_all_iff.mpr exempts.alone⟩, exempts.holds⟩

/-- A program with a marker in a comment of two rows, and with one behind another comment and a
statement of the same row. -/
def crowded : Node :=
  (Program.parse .typescript (Text.encode
    ("let a = 1;\n/* the\ntest-ignore */ export function f() {}\n"
      ++ "let b = 2; /**/ // test-ignore\nexport const g = () => 1"))).root

/-- The first comment exempts the export in its last row. The second one exempts nothing, though
the sibling that it trails is not the nearest. -/
theorem isMarked_iff_crowded :
    InOrder crowded.children ∧
      ∃ first ∈ crowded.placedExports, ∃ second ∈ crowded.placedExports,
        (∃ comment earlier, Exempts "test-ignore" first.1 first.2 comment earlier) ∧
        ¬ ∃ comment earlier, Exempts "test-ignore" second.1 second.2 comment earlier := by
  obtain ⟨ordered, first, mem, second, mem', marked, unmarked⟩ : InOrder crowded.children ∧
      ∃ first ∈ crowded.placedExports, ∃ second ∈ crowded.placedExports,
        first.2.isMarked "test-ignore" first.1 ∧
        second.2.isMarked "test-ignore" second.1 = false := by decide +kernel
  have listed : ∀ placed ∈ crowded.placedExports, placed ∈ withPreceding [] crowded.children :=
    fun placed mem => (List.mem_filter.mp (List.mem_filter.mp mem).1).1
  refine ⟨ordered, first, mem, second, mem', ?_, ?_⟩
  · exact (isMarked_iff ordered (listed first mem) (by decide)).mp marked
  · rw [← isMarked_iff ordered (listed second mem') (by decide), unmarked]
    decide

end Node

end ExportCover
