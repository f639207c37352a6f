import Mathlib.Data.List.Basic
import ExportCover.Json.Printer
import ExportCover.Json.Reader

/-!
# Texts and numbers in a file

The smallest parts of a written value are read as they were written: a text behind its opening quote
whatever follows it (`readText_written`), and a whole number if the next character cannot belong to
a number (`readNumber_toDigits`).
-/

namespace ExportCover.Json

variable {rest : List Char} {c : Char} {n : Nat}

section Blanks

/-- The characters that stand between the parts of a value. -/
def blanks : List Char := [' ', '\t', '\n', '\r']

/-- No blanks are skipped before a character that is none. -/
lemma skipBlanks_of_notMem (visible : c ∉ blanks) : skipBlanks (c :: rest) = c :: rest := by
  simp only [blanks, List.mem_cons, List.not_mem_nil, or_false, not_or] at visible
  rw [skipBlanks, List.dropWhile_cons_of_neg]
  simp [visible]

/-- The start of a line is passed over. -/
@[simp]
lemma skipBlanks_margin (level : Nat) (rest : List Char) :
    skipBlanks ((margin level).toList ++ rest) = skipBlanks rest := by
  have blank : ∀ c ∈ '\n' :: List.replicate (2 * level) ' ', c = '\n' ∨ c = ' ' := by
    intro c mem
    exact (List.mem_cons.mp mem).imp_right List.eq_of_mem_replicate
  rw [margin, String.toList_ofList, skipBlanks, List.dropWhile_append_of_pos]
  · rfl
  · intro c mem
    obtain rfl | rfl := blank c mem <;> rfl

end Blanks

section Texts

/-- The digits of an escape are read in front of anything. -/
lemma readUnit_append {cs : List Char} (read : readUnit cs = some (n, [])) (rest : List Char) :
    readUnit (cs ++ rest) = some (n, rest) := by
  match cs with
  | [] | [_] | [_, _] | [_, _, _] => cases read
  | a :: b :: c :: d :: more =>
    simp only [readUnit, List.cons_append, Option.bind_eq_bind, Option.bind_eq_some_iff,
      Option.pure_def] at read ⊢
    obtain ⟨a', ha, b', hb, c', hc, d', hd, same⟩ := read
    cases same
    exact ⟨a', ha, b', hb, c', hc, d', hd, rfl⟩

/-- Four hexadecimal digits are read as the number that they write. -/
lemma readUnit_hex : ∀ n < 0x20, readUnit (Text.hex 4 n).toList = some (n, []) := by
  decide

/-- A control character is read back from its number. -/
lemma readNumbered_hex (control : c.toNat < 0x20) (rest : List Char) :
    readNumbered ((Text.hex 4 c.toNat).toList ++ rest) = some (c, rest) := by
  rw [readNumbered, readUnit_append (readUnit_hex _ control)]
  simp only [Option.bind_eq_bind, Option.bind_some]
  rw [if_neg (by omega), if_neg (by omega), Char.ofNat_toNat]
  rfl

/-- A simple escape is read as its character. -/
lemma readText_simple {e : Char} (ne : e ≠ 'u') (simple : simpleEscape? e = some c) (fuel : Nat)
    (rest : List Char) : readText (fuel + 1) ('\\' :: e :: rest)
      = (readText fuel rest).map fun (text, rest) => (c :: text, rest) := by
  simp only [readText, simple]
  cases readText fuel rest <;> rfl

/-- A numbered escape is read as its character. -/
lemma readText_numbered (control : c.toNat < 0x20) (fuel : Nat) (rest : List Char) :
    readText (fuel + 1) ('\\' :: 'u' :: ((Text.hex 4 c.toNat).toList ++ rest))
      = (readText fuel rest).map fun (text, rest) => (c :: text, rest) := by
  simp only [readText, readNumbered_hex control, Option.bind_eq_bind, Option.bind_some,
    Option.pure_def]
  cases readText fuel rest <;> rfl

/-- A plain character is read as itself. -/
lemma readText_plain (ne_quote : c ≠ '\x22') (ne_slash : c ≠ '\\') (visible : ¬ c.toNat < 0x20)
    (fuel : Nat) (rest : List Char) : readText (fuel + 1) (c :: rest)
      = (readText fuel rest).map fun (text, rest) => (c :: text, rest) := by
  simp only [readText]
  split
  next same => cases same
  next same => exact absurd (List.cons.inj same).1 ne_quote
  next same => exact absurd (List.cons.inj same).1 ne_slash
  next same => exact absurd (List.cons.inj same).1 ne_slash
  next same =>
    cases same
    rw [if_neg (by simp [visible, ne_slash])]
    cases readText fuel rest <;> rfl

/-- A written character is read as that character. -/
lemma readText_escaped (fuel : Nat) (c : Char) (rest : List Char) :
    readText (fuel + 1) ((escaped c).toList ++ rest)
      = (readText fuel rest).map fun (text, rest) => (c :: text, rest) := by
  rw [escaped.eq_def]
  split
  -- The characters with a sign of their own come first.
  iterate 7 exact readText_simple (by decide) rfl fuel rest
  next ne_quote ne_slash _ _ _ _ _ =>
    split
    next control =>
      rw [String.toList_append]
      exact readText_numbered control fuel rest
    next visible =>
      rw [String.toList_ofList, List.singleton_append]
      exact readText_plain ne_quote ne_slash visible fuel rest

/-- No character is written as nothing. -/
lemma escaped_ne_nil (c : Char) : (escaped c).toList ≠ [] := by
  rw [escaped.eq_def]
  split
  iterate 7 decide
  split
  · simp
  · simp

/-- A text behind its opening quote. -/
def textTail (chars : List Char) : List Char :=
  chars.flatMap (fun c => (escaped c).toList) ++ ['\x22']

/-- The literal of a text is a quote and the rest of it. -/
lemma toList_textLiteral (s : String) : (textLiteral s).toList = '\x22' :: textTail s.toList := by
  rw [textLiteral, String.toList_append, String.toList_append, String.toList_join,
    List.flatMap_map]
  rfl

/-- The literal of a text is longer than the text. -/
lemma length_lt_textTail (chars : List Char) : chars.length < (textTail chars).length := by
  induction chars with
  | nil => exact Nat.one_pos
  | cons c chars ih =>
    have part := List.length_pos_of_ne_nil (escaped_ne_nil c)
    simp only [textTail, List.flatMap_cons, List.length_append, List.length_cons] at ih ⊢
    omega

/-- A written text is read up to its closing quote. -/
lemma readText_textTail (chars : List Char) {fuel : Nat} (enough : chars.length < fuel)
    (rest : List Char) : readText fuel (textTail chars ++ rest) = some (chars, rest) := by
  induction chars generalizing fuel with
  | nil =>
    cases fuel with
    | zero => cases enough
    | succ fuel => rfl
  | cons c chars ih =>
    cases fuel with
    | zero => cases enough
    | succ fuel =>
      have tail : textTail (c :: chars) ++ rest
          = (escaped c).toList ++ (textTail chars ++ rest) := by
        simp [textTail]
      rw [tail, readText_escaped, ih (Nat.lt_of_succ_lt_succ enough)]
      rfl

/-- The text that was written is read if as many steps are allowed as there are characters. -/
lemma readText_written (s : String) (rest : List Char) :
    readText ((textTail s.toList ++ rest).length + 1) (textTail s.toList ++ rest)
      = some (s.toList, rest) := by
  refine readText_textTail _ ?_ rest
  have lt := length_lt_textTail s.toList
  rw [List.length_append]
  omega

end Texts

section Numbers

/-- What follows a value in a file: a comma, or the end of the line. -/
def Closes (rest : List Char) : Prop :=
  ∃ c more, rest = c :: more ∧ (c = ',' ∨ c = '\n')

/-- Digits are read as decimal. -/
lemma ofDigits_eq (digits : List Char) : ofDigits digits = Nat.ofDigitChars 10 digits 0 := by
  rw [ofDigits, Nat.ofDigitChars]
  simp only [Nat.mul_comm]

/-- No number but zero starts with a zero. -/
lemma exists_head_toDigits (pos : 0 < n) : ∃ c cs, Nat.toDigits 10 n = c :: cs ∧ c ≠ '0' := by
  induction n using Nat.strongRecOn with
  | ind n ih =>
    by_cases small : n < 10
    · have nonzero : ∀ d < 10, 0 < d → d.digitChar ≠ '0' := by decide
      exact ⟨_, [], Nat.toDigits_of_lt_base small, nonzero n small pos⟩
    · obtain ⟨c, cs, digits, ne⟩ := ih (n / 10) (by omega) (by omega)
      rw [Nat.toDigits_of_base_le (by decide) (by omega), digits]
      exact ⟨c, _, rfl, ne⟩

/-- The digits of a number are all the digits that stand there. -/
lemma takeWhile_toDigits (n : Nat) (closes : Closes rest) :
    (Nat.toDigits 10 n ++ rest).takeWhile Char.isDigit = Nat.toDigits 10 n := by
  obtain ⟨c, more, rfl, closing⟩ := closes
  have digits : ∀ d ∈ Nat.toDigits 10 n, d.isDigit := fun d mem =>
    Nat.isDigit_of_mem_toDigits (by decide) (by decide) mem
  rw [List.takeWhile_append_of_pos digits, List.takeWhile_cons_of_neg, List.append_nil]
  obtain rfl | rfl := closing <;> decide

/-- Neither a fraction nor an exponent stands at the end of a line. -/
lemma Closes.whole (closes : Closes rest) :
    readFraction rest = ([], rest) ∧ readExponent rest = ([], rest) := by
  obtain ⟨c, more, rfl, rfl | rfl⟩ := closes <;> exact ⟨rfl, rfl⟩

/-- A written number is read, with the sign that stood before it. -/
lemma readNumber_toDigits (negative : Bool) (n : Nat) (closes : Closes rest) :
    readNumber negative (Nat.toDigits 10 n ++ rest)
      = some (.int (if negative then -(n : Int) else n), rest) := by
  obtain rfl | pos := Nat.eq_zero_or_pos n
  · obtain ⟨c, more, rfl, rfl | rfl⟩ := closes <;> cases negative <;> rfl
  · obtain ⟨c, cs, digits, ne⟩ := exists_head_toDigits pos
    have value : ofDigits (Nat.toDigits 10 n) = n := by
      rw [ofDigits_eq, Nat.ofDigitChars_ten_toDigits]
    rw [readNumber]
    · simp only [takeWhile_toDigits n closes, List.drop_left, closes.whole, value]
      rw [if_neg (by simp)]
      rfl
    · intro tail same
      rw [digits] at same
      exact ne (List.cons.inj same).1

end Numbers

end ExportCover.Json
