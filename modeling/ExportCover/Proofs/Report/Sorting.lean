import Mathlib.Data.List.Basic
import Mathlib.Tactic.Lemma
import ExportCover.Report.Diagnostic

/-!
# The order of a report

Diagnostics are sorted by file, line, column and name, and diagnostics that agree in all four keep
their order. So the sorted report is determined by what the unsorted one holds at each place
(`mergeSort_eq_of_filter_ties_eq`), and a report may list its parts in any order as long as the
parts are about different places (`Diagnostic.sort_rearranged`). `Diagnostic.Agree` relates two ways
to put such a report together, each of which may fail.
-/

namespace ExportCover

section Stability

variable {α : Type} {le : α → α → Bool} (trans : ∀ a b c, le a b → le b c → le a c)
  (total : ∀ a b, le a b || le b a)

/-- Neither of the two elements goes before the other. -/
def ties (le : α → α → Bool) (a b : α) : Bool :=
  le a b && le b a

include total in
/-- Every element ties with itself. -/
lemma ties_self (a : α) : ties le a a := by
  have either := total a a
  rw [Bool.or_self] at either
  rw [ties, either]
  rfl

include trans total in
/-- Sorting keeps the order among elements that tie with one element. -/
lemma filter_ties_mergeSort (l : List α) (a : α) :
    (l.mergeSort le).filter (ties le a) = l.filter (ties le a) := by
  have tied : (l.filter (ties le a)).Pairwise fun b c => le b c := by
    rw [List.pairwise_iff_forall_sublist]
    intro b c sub
    have both : ∀ d ∈ [b, c], le a d ∧ le d a := fun d mem =>
      Bool.and_eq_true_iff.mp (List.mem_filter.mp (sub.subset mem)).2
    exact trans b a c (both b (by simp)).2 (both c (by simp)).1
  have sub : (l.filter (ties le a)).Sublist (l.mergeSort le) :=
    List.sublist_mergeSort trans total tied List.filter_sublist
  have within := sub.filter (ties le a)
  rw [List.filter_filter] at within
  simp only [Bool.and_self] at within
  exact (within.eq_of_length ((List.mergeSort_perm l le).filter _).length_eq.symm).symm

include total in
/-- A sorted list is determined by its elements that tie with each element, in their order. -/
lemma eq_of_filter_ties_eq {l l' : List α} (sorted : l.Pairwise fun a b => le a b)
    (sorted' : l'.Pairwise fun a b => le a b)
    (same : ∀ a, l.filter (ties le a) = l'.filter (ties le a)) : l = l' := by
  have members : ∀ {k k' : List α}, (∀ a, k.filter (ties le a) = k'.filter (ties le a)) →
      ∀ a ∈ k, a ∈ k' := by
    intro k k' same a mem
    have found : a ∈ k.filter (ties le a) := List.mem_filter.mpr ⟨mem, ties_self total a⟩
    rw [same a] at found
    exact (List.mem_filter.mp found).1
  induction l generalizing l' with
  | nil =>
    cases l' with
    | nil => rfl
    | cons b rest' => cases members (fun a => (same a).symm) b List.mem_cons_self
  | cons a rest ih =>
    cases l' with
    | nil => cases members same a List.mem_cons_self
    | cons b rest' =>
      obtain ⟨first, tail⟩ := List.pairwise_cons.mp sorted
      obtain ⟨first', tail'⟩ := List.pairwise_cons.mp sorted'
      have refl : ∀ c, le c c := fun c => (Bool.and_eq_true_iff.mp (ties_self total c)).1
      -- Each of the heads stands in the other list and so does not go before its head.
      have le_ab : le a b := by
        obtain rfl | mem := List.mem_cons.mp
          (members (fun c => (same c).symm) b List.mem_cons_self)
        · exact refl b
        · exact first b mem
      have le_ba : le b a := by
        obtain rfl | mem := List.mem_cons.mp (members same a List.mem_cons_self)
        · exact refl a
        · exact first' a mem
      have tie : ties le a b := Bool.and_eq_true_iff.mpr ⟨le_ab, le_ba⟩
      have heads := same a
      rw [List.filter_cons_of_pos (ties_self total a), List.filter_cons_of_pos tie] at heads
      obtain ⟨rfl, _⟩ := List.cons.inj heads
      congr 1
      refine ih tail tail' fun c => ?_
      have tails := same c
      rw [List.filter_cons, List.filter_cons] at tails
      split at tails
      · exact (List.cons.inj tails).2
      · exact tails

include trans total in
/-- Lists whose ties are in the same order are sorted alike. -/
lemma mergeSort_eq_of_filter_ties_eq {l l' : List α}
    (same : ∀ a, l.filter (ties le a) = l'.filter (ties le a)) :
    l.mergeSort le = l'.mergeSort le := by
  refine eq_of_filter_ties_eq total (List.pairwise_mergeSort trans total l)
    (List.pairwise_mergeSort trans total l') fun a => ?_
  rw [filter_ties_mergeSort trans total, filter_ties_mergeSort trans total, same]

end Stability

namespace Diagnostic

/-- Where the diagnostic points in its file. -/
def position (diagnostic : Diagnostic) : Nat × Nat :=
  (diagnostic.line, diagnostic.column)

/-- The order of diagnostics is transitive. -/
instance : Std.TransCmp order :=
  inferInstanceAs (Std.TransCmp (compareLex (compareOn file) (compareLex (compareOn line)
    (compareLex (compareOn column) (compareOn name)))))

/-- Diagnostics in order up to a third are in order. -/
lemma order_isLE_trans (a b c : Diagnostic) (ab : (order a b).isLE) (bc : (order b c).isLE) :
    (order a c).isLE :=
  Std.TransCmp.isLE_trans ab bc

/-- Of two diagnostics one goes first. -/
lemma order_isLE_total (a b : Diagnostic) : (order a b).isLE || (order b a).isLE := by
  have swapped : order b a = (order a b).swap := Std.OrientedCmp.eq_swap
  rw [swapped]
  cases order a b <;> rfl

/-- Diagnostics that tie are at one position. -/
lemma position_eq_of_ties {a b : Diagnostic} (tie : ties (fun a b => (order a b).isLE) a b) :
    a.position = b.position := by
  obtain ⟨ab, ba⟩ := Bool.and_eq_true_iff.mp tie
  have equal : order a b = .eq := Std.OrientedCmp.isLE_antisymm ab ba
  simp only [order, Ordering.then_eq_eq, Std.LawfulEqOrd.compare_eq_iff_eq] at equal
  rw [position, position, equal.2.1, equal.2.2.1]

/-- What a report holds about one statement: the position of the statement, and the errors and the
warnings that point to it. -/
structure Part where
  position : Nat × Nat
  errors : List Diagnostic
  warnings : List Diagnostic

/-- Everything in the part points to its position. -/
def Part.Placed (part : Part) : Prop :=
  ∀ diagnostic ∈ part.errors ++ part.warnings, diagnostic.position = part.position

/-- A part holds nothing at other positions than its own. -/
lemma Part.Placed.filter_eq_nil {part : Part} (placed : part.Placed) {p : Diagnostic → Bool}
    (elsewhere : ∀ diagnostic, p diagnostic → diagnostic.position ≠ part.position) :
    part.errors.filter p = [] ∧ part.warnings.filter p = [] := by
  rw [List.filter_eq_nil_iff, List.filter_eq_nil_iff]
  refine ⟨fun diagnostic mem chosen => ?_, fun diagnostic mem chosen => ?_⟩
  · exact elsewhere diagnostic chosen (placed diagnostic (List.mem_append_left _ mem))
  · exact elsewhere diagnostic chosen (placed diagnostic (List.mem_append_right _ mem))

/-- At one position it does not matter whether a report lists all errors first or goes from part to
part. -/
lemma filter_rearranged {p : Diagnostic → Bool} {position : Nat × Nat}
    (here : ∀ diagnostic, p diagnostic → diagnostic.position = position) {parts : List Part}
    (placed : ∀ part ∈ parts, part.Placed) (distinct : (parts.map (·.position)).Nodup) :
    (parts.flatMap (·.errors) ++ parts.flatMap (·.warnings)).filter p
      = (parts.flatMap fun part => part.errors ++ part.warnings).filter p := by
  induction parts with
  | nil => rfl
  | cons part rest ih =>
    obtain ⟨partPlaced, restPlaced⟩ := List.forall_mem_cons.mp placed
    rw [List.map_cons, List.nodup_cons] at distinct
    have ih := ih restPlaced distinct.2
    simp only [List.filter_append, List.flatMap_cons] at ih ⊢
    by_cases same : part.position = position
    · -- No other part holds anything at this position.
      have others : ∀ other ∈ rest, other.errors.filter p = [] ∧ other.warnings.filter p = [] := by
        intro other mem
        refine (restPlaced other mem).filter_eq_nil fun diagnostic chosen e => distinct.1 ?_
        rw [same, ← here diagnostic chosen, e]
        exact List.mem_map_of_mem mem
      have noErrors : (rest.flatMap (·.errors)).filter p = [] := by
        rw [List.filter_flatMap, List.flatMap_eq_nil_iff]
        exact fun other mem => (others other mem).1
      have noWarnings : (rest.flatMap (·.warnings)).filter p = [] := by
        rw [List.filter_flatMap, List.flatMap_eq_nil_iff]
        exact fun other mem => (others other mem).2
      rw [noErrors, noWarnings] at ih
      rw [noErrors, noWarnings, ← ih]
      simp
    · obtain ⟨noErrors, noWarnings⟩ := partPlaced.filter_eq_nil
        fun diagnostic chosen e => same (e.symm.trans (here diagnostic chosen))
      rw [noErrors, noWarnings]
      exact ih

/-- A report that lists all errors first and one that goes from part to part are sorted alike if the
parts have different positions. -/
theorem sort_rearranged {parts : List Part} (placed : ∀ part ∈ parts, part.Placed)
    (distinct : (parts.map (·.position)).Nodup) :
    sort (parts.flatMap (·.errors) ++ parts.flatMap (·.warnings))
      = sort (parts.flatMap fun part => part.errors ++ part.warnings) := by
  refine mergeSort_eq_of_filter_ties_eq order_isLE_trans order_isLE_total fun a => ?_
  exact filter_rearranged (fun diagnostic tie => (position_eq_of_ties tie).symm) placed distinct

/-- Errors before warnings are the same diagnostics in another order. -/
lemma perm_rearranged (parts : List Part) :
    (parts.flatMap (·.errors) ++ parts.flatMap (·.warnings)).Perm
      (parts.flatMap fun part => part.errors ++ part.warnings) := by
  induction parts with
  | nil => exact .refl []
  | cons part rest ih =>
    simp only [List.flatMap_cons]
    rw [List.append_assoc, List.append_assoc, List.perm_append_left_iff]
    -- The warnings of the first part move in front of the errors of the others.
    exact (List.perm_append_comm_assoc _ _ _).trans (ih.append_left part.warnings)

/-- The warnings about exports that are not checked, if there are to be any. -/
def warnings (warns : Bool) (file language : String) (exports : List UncheckedExport) :
    List Diagnostic :=
  if warns then exports.map (unchecked · file language) else []

/-- The warnings about two lists stand one after the other. -/
lemma warnings_append {warns : Bool} {file language : String}
    (first second : List UncheckedExport) : warnings warns file language (first ++ second)
      = warnings warns file language first ++ warnings warns file language second := by
  cases warns with
  | true => exact List.map_append
  | false => rfl

/-- Two checks that agree: the errors and the warnings about statements together, and the report
about one statement after the other. Either both ways end with the same fault, or both are put
together from reports about the single statements. -/
inductive Agree (positions : List (Nat × Nat)) :
    Except Fault (List Diagnostic) → List Diagnostic → Except Fault (List Diagnostic) → Prop where
  | fault (fault : Fault) (warnings : List Diagnostic) :
    Agree positions (.error fault) warnings (.error fault)
  | report (parts : List Part) (placed : ∀ part ∈ parts, part.Placed)
    (starts : parts.map (·.position) = positions) :
    Agree positions (.ok (parts.flatMap (·.errors))) (parts.flatMap (·.warnings))
      (.ok (parts.flatMap fun part => part.errors ++ part.warnings))

namespace Agree

variable {positions : List (Nat × Nat)} {missing each : Except Fault (List Diagnostic)}
  {warnings errors : List Diagnostic} {fault : Fault}

/-- The report about one more statement is put in front. -/
lemma cons (agree : Agree positions missing warnings each) (part : Part) (placed : part.Placed) :
    Agree (part.position :: positions) (missing >>= fun others => .ok (part.errors ++ others))
      (part.warnings ++ warnings)
      (each >>= fun others => .ok ((part.errors ++ part.warnings) ++ others)) := by
  cases agree with
  | fault fault => exact .fault fault _
  | report parts allPlaced starts =>
    exact .report (part :: parts) (List.forall_mem_cons.mpr ⟨placed, allPlaced⟩)
      (by rw [List.map_cons, starts])

/-- If the report fails as a whole then it fails statement by statement, with the same fault. -/
lemma each_eq_error (agree : Agree positions missing warnings each)
    (failed : missing = .error fault) : each = .error fault := by
  cases agree with
  | fault fault' => exact failed
  | report => cases failed

/-- Reports that agree hold the same diagnostics. They are equal if there are no warnings, and
sorted they are equal if the statements start at different positions. -/
lemma exists_report (agree : Agree positions missing warnings each)
    (reported : missing = .ok errors) :
    ∃ report, each = .ok report ∧ (errors ++ warnings).Perm report ∧
      (warnings = [] → errors ++ warnings = report) ∧
      (positions.Nodup → sort (errors ++ warnings) = sort report) := by
  cases agree with
  | fault => cases reported
  | report parts placed starts =>
    cases reported
    refine ⟨_, rfl, perm_rearranged parts, fun none => ?_, fun distinct => ?_⟩
    · rw [none, List.append_nil]
      refine congrArg List.flatten (List.map_congr_left fun part mem => ?_)
      rw [List.flatMap_eq_nil_iff.mp none part mem, List.append_nil]
    · exact sort_rearranged placed (starts ▸ distinct)

end Agree

end Diagnostic

end ExportCover
