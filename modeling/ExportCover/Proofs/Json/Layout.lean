import ExportCover.Proofs.Json.Tokens

/-!
# The layout of values

The text of a value as characters: the lines of its parts with commas between them (`written_array`,
`written_object`), each of which is shorter than the whole (`length_le_of_mem`). The first character
shows that a value is there (`exists_written`), provided that no number in it has a fraction or an
exponent.
-/

namespace ExportCover.Json

/-- No number in the value has a fraction or an exponent. -/
inductive Exact : Json → Prop where
  | null : Exact .null
  | bool (value : Bool) : Exact (.bool value)
  | int (value : Int) : Exact (.int value)
  | string (text : String) : Exact (.string text)
  | array {items : List Json} (all : ∀ item ∈ items, Exact item) : Exact (.array items)
  | object {fields : List (String × Json)} (all : ∀ field ∈ fields, Exact field.2) :
    Exact (.object fields)

variable {c : Char} {value : Json} {level : Nat}

section Layout

/-- The text of a value. -/
def written (level : Nat) (value : Json) : List Char :=
  (renderAt level value).toList

/-- An item of an array on its line. -/
def itemLine (level : Nat) (item : Json) : List Char :=
  (margin level).toList ++ written level item

/-- A field of an object on its line. -/
def fieldLine (level : Nat) (field : String × Json) : List Char :=
  (margin level).toList ++ '\x22' ::
    (textTail field.1.toList ++ ':' :: ' ' :: written level field.2)

/-- Parts with commas between them. -/
def separated : List (List Char) → List Char
  | [] => []
  | part :: parts => part ++ parts.flatMap fun part => ',' :: part

/-- A single part needs no comma. -/
lemma separated_singleton (part more : List Char) : separated [part] ++ more = part ++ more := by
  simp [separated]

/-- A comma stands between the first part and the others. -/
lemma separated_cons (part next : List Char) (parts : List (List Char)) (more : List Char) :
    separated (part :: next :: parts) ++ more
      = part ++ ',' :: (separated (next :: parts) ++ more) := by
  simp [separated]

/-- Joining texts with commas separates them. -/
lemma toList_intercalate_comma (parts : List String) :
    (",".intercalate parts).toList = separated (parts.map String.toList) := by
  rw [String.toList_intercalate]
  cases parts with
  | nil => rfl
  | cons part parts =>
    induction parts generalizing part with
    | nil => simp [separated]
    | cons next parts ih =>
      rw [List.map_cons, List.map_cons, List.intercalate_cons_cons, ← List.map_cons, ih]
      simp [separated]

/-- Every item is rendered on its line. -/
lemma renderItems_eq (level : Nat) (items : List Json) :
    (renderItems level items).map String.toList = items.map (itemLine level) := by
  induction items with
  | nil => rfl
  | cons item items ih =>
    rw [renderItems, List.map_cons, ih, String.toList_append]
    rfl

/-- Every field is rendered on its line. -/
lemma renderFields_eq (level : Nat) (fields : List (String × Json)) :
    (renderFields level fields).map String.toList = fields.map (fieldLine level) := by
  induction fields with
  | nil => rfl
  | cons field fields ih =>
    rw [renderFields, List.map_cons, ih]
    simp only [String.toList_append, toList_textLiteral, List.map_cons, fieldLine, written]
    simp

/-- The text of a value, by its kind. -/
lemma written_eq (level : Nat) (value : Json) : written level value = match value with
    | .null => ['n', 'u', 'l', 'l']
    | .bool true => ['t', 'r', 'u', 'e']
    | .bool false => ['f', 'a', 'l', 's', 'e']
    | .int n => (toString n).toList
    | .decimal text => text.toList
    | .string text => '\x22' :: textTail text.toList
    | .array [] => ['[', ']']
    | .array (item :: items) => '[' :: (separated ((item :: items).map (itemLine (level + 1)))
        ++ ((margin level).toList ++ [']']))
    | .object [] => ['\x7b', '\x7d']
    | .object (field :: fields) => '\x7b' :: (separated ((field :: fields).map
        (fieldLine (level + 1))) ++ ((margin level).toList ++ ['\x7d'])) := by
  rw [written, renderAt.eq_def]
  cases value with
  | null =>
    dsimp only
    rfl
  | bool value =>
    cases value <;> dsimp only <;> rfl
  | int n => rfl
  | decimal text => rfl
  | string text => exact toList_textLiteral text
  | array items =>
    dsimp only
    cases items with
    | nil =>
      rw [if_pos List.isEmpty_nil]
      rfl
    | cons item items =>
      rw [if_neg (by simp)]
      simp only [String.toList_append, toList_intercalate_comma, renderItems_eq, List.append_assoc]
      rfl
  | object fields =>
    dsimp only
    cases fields with
    | nil =>
      rw [if_pos List.isEmpty_nil]
      rfl
    | cons field fields =>
      rw [if_neg (by simp)]
      simp only [String.toList_append, toList_intercalate_comma, renderFields_eq,
        List.append_assoc]
      rfl

/-- How null is written. -/
lemma written_null : written level .null = ['n', 'u', 'l', 'l'] :=
  written_eq level .null

/-- How false is written. -/
lemma written_false : written level (.bool false) = ['f', 'a', 'l', 's', 'e'] :=
  written_eq level (.bool false)

/-- How true is written. -/
lemma written_true : written level (.bool true) = ['t', 'r', 'u', 'e'] :=
  written_eq level (.bool true)

/-- A number that is not negative is written in digits. -/
lemma written_nonneg (n : Nat) : written level (.int (Int.ofNat n)) = Nat.toDigits 10 n := by
  have plain : toString (Int.ofNat n) = Nat.repr n := rfl
  rw [written_eq]
  dsimp only
  rw [plain, Nat.repr_eq_ofList_toDigits, String.toList_ofList]

/-- A negative number is written with a sign. -/
lemma written_negative (n : Nat) :
    written level (.int (Int.negSucc n)) = '-' :: Nat.toDigits 10 (n + 1) := by
  have sign : toString (Int.negSucc n) = "-" ++ Nat.repr (n + 1) := rfl
  rw [written_eq]
  dsimp only
  rw [sign, String.toList_append, Nat.repr_eq_ofList_toDigits]
  exact congrArg (List.cons '-') String.toList_ofList

/-- A text is written between quotes. -/
lemma written_string (text : String) :
    written level (.string text) = '\x22' :: textTail text.toList :=
  written_eq level (.string text)

/-- How an empty array is written. -/
lemma written_array_nil : written level (.array []) = ['[', ']'] :=
  written_eq level (.array [])

/-- An array is written with an item on each line. -/
lemma written_array (item : Json) (items : List Json) :
    written level (.array (item :: items)) = '[' :: (separated ((item :: items).map
      (itemLine (level + 1))) ++ ((margin level).toList ++ [']'])) :=
  written_eq level (.array (item :: items))

/-- How an empty object is written. -/
lemma written_object_nil : written level (.object []) = ['\x7b', '\x7d'] :=
  written_eq level (.object [])

/-- An object is written with a field on each line. -/
lemma written_object (field : String × Json) (fields : List (String × Json)) :
    written level (.object (field :: fields)) = '\x7b' :: (separated ((field :: fields).map
      (fieldLine (level + 1))) ++ ((margin level).toList ++ ['\x7d'])) :=
  written_eq level (.object (field :: fields))

end Layout

section Start

/-- The characters with which no value starts: blanks and closing brackets. -/
def outside : List Char :=
  blanks ++ [']', '\x7d']

/-- A value can start with a digit. -/
lemma notMem_outside_of_isDigit (digit : c.isDigit) : c ∉ outside := by
  intro mem
  simp only [outside, blanks, List.cons_append, List.nil_append, List.mem_cons, List.not_mem_nil,
    or_false] at mem
  rcases mem with rfl | rfl | rfl | rfl | rfl | rfl <;> cases digit

/-- A number starts with a digit. -/
lemma exists_digits (n : Nat) : ∃ c cs, Nat.toDigits 10 n = c :: cs ∧ c.isDigit := by
  obtain ⟨c, cs, digits⟩ := List.exists_cons_of_ne_nil (Nat.toDigits_ne_nil (b := 10) (n := n))
  exact ⟨c, cs, digits, Nat.isDigit_of_mem_toDigits (by decide) (by decide)
    (digits ▸ List.mem_cons_self)⟩

/-- A value is written in at least one character, and the first one shows that it is there. -/
lemma exists_written (level : Nat) (exact : value.Exact) :
    ∃ c cs, written level value = c :: cs ∧ c ∉ outside := by
  cases exact with
  | null => exact ⟨_, _, written_null, by decide⟩
  | bool value =>
    cases value with
    | false => exact ⟨_, _, written_false, by decide⟩
    | true => exact ⟨_, _, written_true, by decide⟩
  | int value =>
    cases value with
    | ofNat n =>
      obtain ⟨c, cs, digits, digit⟩ := exists_digits n
      exact ⟨c, cs, (written_nonneg n).trans digits, notMem_outside_of_isDigit digit⟩
    | negSucc n => exact ⟨_, _, written_negative n, by decide⟩
  | string text => exact ⟨_, _, written_string text, by decide⟩
  | @array items all =>
    cases items with
    | nil => exact ⟨_, _, written_array_nil, by decide⟩
    | cons item items => exact ⟨_, _, written_array item items, by decide⟩
  | @object fields all =>
    cases fields with
    | nil => exact ⟨_, _, written_object_nil, by decide⟩
    | cons field fields => exact ⟨_, _, written_object field fields, by decide⟩

end Start

section Lengths

/-- Every line comes with a character of its own. -/
lemma length_le_lines {α : Type} {line : α → List Char} (filled : ∀ a, line a ≠ [])
    (parts : List α) : parts.length ≤ (separated (parts.map line)).length := by
  cases parts with
  | nil => exact Nat.zero_le _
  | cons part parts =>
    have first := List.length_pos_of_ne_nil (filled part)
    have others : parts.length ≤ ((parts.map line).flatMap fun part => ',' :: part).length := by
      induction parts with
      | nil => exact Nat.zero_le _
      | cons next parts ih =>
        simp only [List.map_cons, List.flatMap_cons, List.length_append, List.length_cons]
        omega
    rw [List.map_cons, separated, List.length_append, List.length_cons]
    omega

/-- No part is longer than all parts together. -/
lemma length_le_of_mem {part : List Char} {parts : List (List Char)} (mem : part ∈ parts) :
    part.length ≤ (separated parts).length := by
  have whole : part <:+: separated parts := by
    cases parts with
    | nil => cases mem
    | cons first parts =>
      obtain rfl | mem := List.mem_cons.mp mem
      · exact (List.prefix_append _ _).isInfix
      · have inside : (',' :: part) <:+: parts.flatMap fun part => ',' :: part := by
          rw [List.flatMap_def]
          exact List.infix_of_mem_flatten (List.mem_map_of_mem mem)
        exact ((List.suffix_cons _ part).isInfix.trans inside).trans
          (List.suffix_append first _).isInfix
  exact whole.length_le

/-- A margin is not empty. -/
lemma margin_ne_nil (level : Nat) : (margin level).toList ≠ [] := by
  rw [margin, String.toList_ofList]
  exact List.cons_ne_nil _ _

/-- The line of an item is not empty. -/
lemma itemLine_ne_nil (level : Nat) (item : Json) : itemLine level item ≠ [] :=
  List.append_ne_nil_of_left_ne_nil (margin_ne_nil level) _

/-- The line of a field is not empty. -/
lemma fieldLine_ne_nil (level : Nat) (field : String × Json) : fieldLine level field ≠ [] :=
  List.append_ne_nil_of_left_ne_nil (margin_ne_nil level) _

end Lengths

end ExportCover.Json
