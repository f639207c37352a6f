import Mathlib.Tactic.Lemma
import ExportCover.Path.Glob

/-!
# Patterns for texts and for their beginnings

A pattern can be written that stands for one text and no other (`admits_exactly`): the characters
that have a meaning in patterns stand alone between brackets. A literal text, which has none of
them, stands with a star behind it for all texts that start with it (`admits_star`).
-/

namespace ExportCover.Glob

/-- The character has a meaning in patterns. -/
def isSpecial (c : Char) : Bool :=
  c == '*' || c == '?' || c == '['

/-- A character as patterns write it. -/
def quoted (c : Char) : List Char :=
  if isSpecial c then ['[', c, ']'] else [c]

/-- The pattern that stands for a text. -/
def exactly (text : String) : String :=
  String.ofList (text.toList.flatMap quoted)

/-- The place that stands for a quoted character. -/
def placeOf (c : Char) : Place :=
  if isSpecial c then .set false [(c, c)] else .literal c

/-- The place of a character admits that character only. -/
lemma placeOf_admits {c x : Char} : (placeOf c).admits x = true ↔ x = c := by
  rw [placeOf]
  split
  · simp only [Place.admits, List.any_cons, List.any_nil, Bool.or_false, bne_iff_ne, ne_eq,
      Bool.not_eq_false, Bool.and_eq_true, decide_eq_true_eq]
    refine ⟨fun ⟨low, high⟩ => Char.le_antisymm high low, ?_⟩
    rintro rfl
    exact ⟨Char.le_refl x, Char.le_refl x⟩
  · simp [Place.admits]

/-- A quoted character is read as its place. -/
lemma tokensWithin_quoted (c : Char) (rest : List Char) (fuel : Nat) :
    tokensWithin (fuel + 1) (quoted c ++ rest) = .place (placeOf c) :: tokensWithin fuel rest := by
  rw [quoted, placeOf]
  split
  next special =>
    have known : c = '*' ∨ c = '?' ∨ c = '[' := by simpa [isSpecial, or_assoc] using special
    obtain rfl | rfl | rfl := known <;> rfl
  next plain =>
    obtain ⟨⟨noStar, noAny⟩, noBracket⟩ : (c ≠ '*' ∧ c ≠ '?') ∧ c ≠ '[' := by
      simpa [isSpecial, not_or] using plain
    simp [tokensWithin, noStar, noAny, noBracket]

/-- The quoted characters at the start of a pattern are read as their places. -/
lemma tokensWithin_flatMap (cs rest : List Char) (fuel : Nat) :
    tokensWithin (cs.length + fuel) (cs.flatMap quoted ++ rest)
      = (cs.map placeOf).map .place ++ tokensWithin fuel rest := by
  induction cs with
  | nil => rw [List.length_nil, Nat.zero_add]; rfl
  | cons c cs ih =>
    rw [List.length_cons, Nat.add_right_comm, List.flatMap_cons, List.append_assoc,
      tokensWithin_quoted, ih]
    rfl

/-- An empty pattern has no tokens. -/
lemma tokensWithin_nil (fuel : Nat) : tokensWithin fuel [] = [] := by
  cases fuel <;> rfl

/-- Up to the first star a pattern is one piece. -/
lemma pieces_places (places : List Place) (rest : List Token) :
    pieces (places.map .place ++ rest) = (places ++ (pieces rest).1, (pieces rest).2) := by
  induction places with
  | nil => rfl
  | cons p places ih => rw [List.map_cons, List.cons_append, pieces, ih]; rfl

/-- Places of characters take off those characters. -/
lemma afterPiece_placeOf {cs text rest : List Char} :
    afterPiece (cs.map placeOf) text = some rest ↔ text = cs ++ rest := by
  induction cs generalizing text with
  | nil => simp [afterPiece]
  | cons c cs ih =>
    cases text with
    | nil => simp [afterPiece]
    | cons x text =>
      rw [List.map_cons, afterPiece]
      split
      next admitted =>
        rw [ih, List.cons_append, List.cons.injEq, placeOf_admits.mp admitted, eq_self, true_and]
      next refused =>
        simp only [placeOf_admits] at refused
        simp [refused]

/-- Quoting does not shorten a text. -/
lemma length_le_quoted (cs : List Char) : cs.length ≤ (cs.flatMap quoted).length := by
  induction cs with
  | nil => exact Nat.le_refl 0
  | cons c cs ih =>
    have here : 1 ≤ (quoted c).length := by
      rw [quoted]
      split <;> simp
    rw [List.flatMap_cons, List.length_append, List.length_cons]
    omega

/-- A pattern that begins with a text stands for texts that begin with it. -/
lemma admits_iff {pattern text : String} {start : List Char} {others : List (List Place)}
    (read : pieces (tokens pattern.toList) = (start.map placeOf, others)) :
    admits pattern text = true ↔
      ∃ rest, text.toList = start ++ rest ∧ matchAfterStars others rest = true := by
  simp only [admits, read, ← afterPiece_placeOf]
  cases afterPiece (start.map placeOf) text.toList with
  | none => simp
  | some rest => simp

/-- There is a pattern for every text that stands for this text alone. -/
theorem admits_exactly {text other : String} :
    admits (exactly text) other = true ↔ other = text := by
  have read : pieces (tokens (exactly text).toList) = (text.toList.map placeOf, []) := by
    obtain ⟨fuel, enough⟩ := Nat.exists_eq_add_of_le (length_le_quoted text.toList)
    have whole := tokensWithin_flatMap text.toList [] fuel
    rw [List.append_nil, tokensWithin_nil] at whole
    rw [exactly, String.toList_ofList, tokens, enough, whole, pieces_places]
    simp [pieces]
  rw [admits_iff read, ← String.toList_inj]
  simp [matchAfterStars]

/-- No character of the text has a meaning in patterns. -/
def IsLiteral (text : String) : Prop :=
  ∀ c ∈ text.toList, isSpecial c = false

/-- Whether a text is literal can be computed. -/
instance (text : String) : Decidable (IsLiteral text) :=
  List.decidableBAll (isSpecial · = false) text.toList

/-- A literal text is quoted as it is. -/
lemma flatMap_quoted {cs : List Char} (literal : ∀ c ∈ cs, isSpecial c = false) :
    cs.flatMap quoted = cs := by
  induction cs with
  | nil => rfl
  | cons c cs ih =>
    obtain ⟨plain, literal⟩ := List.forall_mem_cons.mp literal
    rw [List.flatMap_cons, quoted, plain, ih literal]
    rfl

/-- A literal text and a star stand for the texts that start with it. -/
theorem admits_star {start : String} (literal : IsLiteral start) (text : String) :
    admits (start ++ "*") text = Text.startsWith text start := by
  have read : pieces (tokens (start ++ "*").toList) = (start.toList.map placeOf, [[]]) := by
    have whole := tokensWithin_flatMap start.toList ['*'] 1
    rw [flatMap_quoted literal] at whole
    rw [String.toList_append, tokens, List.length_append]
    refine (congrArg pieces whole).trans ((pieces_places _ _).trans ?_)
    simp [tokensWithin, pieces]
  have all (rest : List Char) : matchAfterStars [[]] rest = true := by
    simp [matchAfterStars, endsWithPiece, afterPiece]
  rw [Bool.eq_iff_iff, admits_iff read, Text.startsWith, List.isPrefixOf_iff_prefix]
  constructor
  · rintro ⟨rest, same, -⟩
    exact ⟨rest, same.symm⟩
  · rintro ⟨rest, same⟩
    exact ⟨rest, same.symm, all rest⟩

end ExportCover.Glob
