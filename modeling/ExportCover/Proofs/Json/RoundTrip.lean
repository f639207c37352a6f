import ExportCover.Proofs.Json.Distinct
import ExportCover.Proofs.Json.Layout

/-!
# Values in a file

A value is read as it was written (`parse?_render`), provided that no number in it has a fraction or
an exponent and that no object in it has a key twice. The first is a matter of the value; the second
holds of everything that was read.
-/

namespace ExportCover.Json

variable {read : List Char → Option (Json × List Char)} {rest cs : List Char} {c : Char}
  {value : Json} {level fuel : Nat}

section Reading

/-- Blanks in front of a value make no difference. -/
lemma readValue_congr {cs' : List Char} (same : skipBlanks cs = skipBlanks cs') :
    readValue fuel cs = readValue fuel cs' := by
  cases fuel with
  | zero => rfl
  | succ fuel => rw [readValue, readValue, same]

/-- A value that starts with a digit is a number. -/
lemma readValue_digit (digit : c.isDigit) :
    readValue (fuel + 1) (c :: rest) = readNumber false (c :: rest) := by
  have visible : c ∉ blanks := fun mem =>
    notMem_outside_of_isDigit digit (List.mem_append_left _ mem)
  rw [readValue, skipBlanks_of_notMem visible]
  split
  iterate 10
    next same =>
      cases same
      cases digit
  rfl

/-- A value that starts with a sign is a negative number. -/
lemma readValue_minus (digit : c.isDigit) :
    readValue (fuel + 1) ('-' :: c :: rest) = readNumber true (c :: rest) := by
  rw [readValue, skipBlanks_of_notMem (by decide)]
  split
  iterate 3
    next same => cases same
  next same =>
    cases same
    cases digit
  next same =>
    cases same
    rfl
  iterate 5
    next same => cases same
  next _ _ _ _ minus _ _ _ _ _ => exact absurd rfl (minus _)

/-- A number ends at a margin. -/
lemma closes_margin (level : Nat) (rest : List Char) :
    Closes ((margin level).toList ++ rest) := by
  rw [margin, String.toList_ofList]
  exact ⟨'\n', _, rfl, .inr rfl⟩

/-- A number ends at a comma. -/
lemma closes_comma (rest : List Char) : Closes (',' :: rest) :=
  ⟨',', rest, rfl, .inl rfl⟩

/-- The last item is followed by the closing bracket. -/
lemma readItems_last {item : Json} {more : List Char} (here : read cs = some (item, more))
    (closed : skipBlanks more = ']' :: rest) :
    readItems read (fuel + 1) cs = some ([item], rest) := by
  simp only [readItems, here, Option.bind_eq_bind, Option.bind_some, closed]
  rfl

/-- An item that is followed by a comma is followed by others. -/
lemma readItems_more {item : Json} {items : List Json} {more : List Char}
    (here : read cs = some (item, ',' :: more))
    (there : readItems read fuel more = some (items, rest)) :
    readItems read (fuel + 1) cs = some (item :: items, rest) := by
  simp only [readItems, here, Option.bind_eq_bind, Option.bind_some]
  rw [skipBlanks_of_notMem (by decide)]
  simp only [there, Option.bind_some, Option.pure_def]

/-- The items of an array are read line by line, if each of them is. -/
lemma readItems_lines (item : Json) (items : List Json) (enough : items.length < fuel)
    (reads : ∀ next ∈ item :: items, ∀ rest, Closes rest →
      read (itemLine level next ++ rest) = some (next, rest)) (outer : Nat) (rest : List Char) :
    readItems read fuel (separated ((item :: items).map (itemLine level))
        ++ ((margin outer).toList ++ ']' :: rest)) = some (item :: items, rest) := by
  induction items generalizing item fuel with
  | nil =>
    obtain _ | fuel := fuel
    · cases enough
    · rw [List.map_singleton, separated_singleton]
      exact readItems_last (reads item List.mem_cons_self _ (closes_margin outer _))
        (skipBlanks_margin outer _)
  | cons next items ih =>
    obtain _ | fuel := fuel
    · cases enough
    · rw [List.map_cons, List.map_cons, separated_cons]
      exact readItems_more (reads item List.mem_cons_self _ (closes_comma _))
        (ih next (Nat.lt_of_succ_lt_succ enough)
          fun other mem => reads other (List.mem_cons_of_mem _ mem))

/-- The key of a field is read, and then its value. -/
lemma readFields_line {field : String × Json} {more : List Char}
    (here : read (' ' :: (written level field.2 ++ cs)) = some (field.2, more)) :
    readFields read (fuel + 1) (fieldLine level field ++ cs) = match skipBlanks more with
      | ',' :: rest => (readFields read fuel rest).bind fun (fields, rest) =>
        some (field :: fields, rest)
      | '\x7d' :: rest => some ([field], rest)
      | _ => none := by
  have line : fieldLine level field ++ cs = (margin level).toList ++ '\x22' ::
      (textTail field.1.toList ++ ':' :: ' ' :: (written level field.2 ++ cs)) := by
    simp [fieldLine]
  simp only [readFields, line, skipBlanks_margin]
  rw [skipBlanks_of_notMem (by decide)]
  simp only [readText_written, Option.bind_eq_bind, Option.bind_some]
  rw [skipBlanks_of_notMem (by decide)]
  simp only [here, Option.bind_some, String.ofList_toList]
  rfl

/-- The fields of an object are read line by line, if the value of each of them is. -/
lemma readFields_lines (field : String × Json) (fields : List (String × Json))
    (enough : fields.length < fuel)
    (reads : ∀ next ∈ field :: fields, ∀ rest, Closes rest →
      read (' ' :: (written level next.2 ++ rest)) = some (next.2, rest))
    (outer : Nat) (rest : List Char) :
    readFields read fuel (separated ((field :: fields).map (fieldLine level))
        ++ ((margin outer).toList ++ '\x7d' :: rest)) = some (field :: fields, rest) := by
  induction fields generalizing field fuel with
  | nil =>
    obtain _ | fuel := fuel
    · cases enough
    · rw [List.map_singleton, separated_singleton,
        readFields_line (reads field List.mem_cons_self _ (closes_margin outer _)),
        skipBlanks_margin]
      rfl
  | cons next fields ih =>
    obtain _ | fuel := fuel
    · cases enough
    · have there := ih next (Nat.lt_of_succ_lt_succ enough)
        fun other mem => reads other (List.mem_cons_of_mem _ mem)
      rw [List.map_cons, List.map_cons, separated_cons,
        readFields_line (reads field List.mem_cons_self _ (closes_comma _)),
        skipBlanks_of_notMem (by decide)]
      rw [List.map_cons] at there
      simp only [there, Option.bind_some]

end Reading

section Values

/-- A bracket opens an array. -/
lemma readValue_array_open (fuel : Nat) (cs : List Char) :
    readValue (fuel + 1) ('[' :: cs) = match skipBlanks cs with
      | ']' :: rest => some (.array [], rest)
      | _ => (readItems (readValue fuel) (cs.length + 1) cs).map fun (items, rest) =>
        (.array items, rest) :=
  rfl

/-- A brace opens an object. -/
lemma readValue_object_open (fuel : Nat) (cs : List Char) :
    readValue (fuel + 1) ('\x7b' :: cs) = match skipBlanks cs with
      | '\x7d' :: rest => some (.object [], rest)
      | _ => (readFields (readValue fuel) (cs.length + 1) cs).map fun (fields, rest) =>
        (.object (mergeFields fields), rest) :=
  rfl

/-- A quote opens a text. -/
lemma readValue_string_open (fuel : Nat) (cs : List Char) :
    readValue (fuel + 1) ('\x22' :: cs) = (readText (cs.length + 1) cs).map fun (text, rest) =>
      (.string (String.ofList text), rest) :=
  rfl

/-- An array that is not closed at once is read item by item. -/
lemma readValue_items {items : List Json} {more : List Char} (first : skipBlanks cs = c :: rest)
    (inside : c ∉ outside)
    (read : readItems (readValue fuel) (cs.length + 1) cs = some (items, more)) :
    readValue (fuel + 1) ('[' :: cs) = some (.array items, more) := by
  rw [readValue_array_open, first]
  split
  next closed =>
    cases closed
    exact absurd (by decide) inside
  next => rw [read, Option.map_some]

/-- An object that is not closed at once is read field by field. -/
lemma readValue_fields {fields : List (String × Json)} {more : List Char}
    (first : skipBlanks cs = c :: rest) (inside : c ∉ outside)
    (read : readFields (readValue fuel) (cs.length + 1) cs = some (fields, more)) :
    readValue (fuel + 1) ('\x7b' :: cs) = some (.object (mergeFields fields), more) := by
  rw [readValue_object_open, first]
  split
  next closed =>
    cases closed
    exact absurd (by decide) inside
  next => rw [read, Option.map_some]

/-- A character with which a value can start is no blank. -/
lemma notMem_blanks (inside : c ∉ outside) : c ∉ blanks :=
  fun mem => inside (List.mem_append_left _ mem)

/-- What is visible first in lines is what is visible first in the first line. -/
lemma exists_skipBlanks_lines {line : List Char} (starts : line = (margin level).toList ++ c :: cs)
    (inside : c ∉ outside) (lines : List (List Char)) (rest : List Char) :
    ∃ more, skipBlanks (separated (line :: lines) ++ rest) = c :: more := by
  refine ⟨cs ++ lines.flatMap (fun line => ',' :: line) ++ rest, ?_⟩
  rw [separated, starts, List.append_assoc, List.append_assoc, skipBlanks_margin, List.cons_append,
    skipBlanks_of_notMem (notMem_blanks inside), List.append_assoc]

/-- A written array is read if its items are. -/
lemma readValue_array (item : Json) (items : List Json) (exact : item.Exact)
    (reads : ∀ next ∈ item :: items, ∀ rest, Closes rest →
      readValue fuel (written (level + 1) next ++ rest) = some (next, rest)) (rest : List Char) :
    readValue (fuel + 1) (written level (.array (item :: items)) ++ rest)
      = some (.array (item :: items), rest) := by
  obtain ⟨c, cs, starts, inside⟩ := exists_written (level + 1) exact
  have line : itemLine (level + 1) item = (margin (level + 1)).toList ++ c :: cs := by
    rw [itemLine, starts]
  obtain ⟨more, first⟩ := exists_skipBlanks_lines line inside (items.map (itemLine (level + 1)))
    ((margin level).toList ++ ']' :: rest)
  have lines := length_le_lines (itemLine_ne_nil (level + 1)) (item :: items)
  rw [written_array, List.cons_append, List.append_assoc, List.append_assoc, List.singleton_append]
  refine readValue_items first inside (readItems_lines item items ?_ ?_ level rest)
  · rw [List.length_cons] at lines
    rw [List.length_append]
    omega
  · intro next mem rest closes
    rw [itemLine, List.append_assoc, ← reads next mem rest closes]
    exact readValue_congr (skipBlanks_margin _ _)

/-- A written object is read if the values of its fields are. -/
lemma readValue_object (field : String × Json) (fields : List (String × Json))
    (reads : ∀ next ∈ field :: fields, ∀ rest, Closes rest →
      readValue fuel (written (level + 1) next.2 ++ rest) = some (next.2, rest))
    (rest : List Char) :
    readValue (fuel + 1) (written level (.object (field :: fields)) ++ rest)
      = some (.object (mergeFields (field :: fields)), rest) := by
  have line : fieldLine (level + 1) field = (margin (level + 1)).toList ++ '\x22' ::
      (textTail field.1.toList ++ ':' :: ' ' :: written (level + 1) field.2) := rfl
  obtain ⟨more, first⟩ := exists_skipBlanks_lines line (by decide)
    (fields.map (fieldLine (level + 1))) ((margin level).toList ++ '\x7d' :: rest)
  have lines := length_le_lines (fieldLine_ne_nil (level + 1)) (field :: fields)
  rw [written_object, List.cons_append, List.append_assoc, List.append_assoc, List.singleton_append]
  refine readValue_fields first (by decide) (readFields_lines field fields ?_ ?_ level rest)
  · rw [List.length_cons] at lines
    rw [List.length_append]
    omega
  · intro next mem rest closes
    rw [← reads next mem rest closes]
    exact readValue_congr rfl

/-- A text is read back as it was written. -/
lemma readValue_string (text : String) (rest : List Char) :
    readValue (fuel + 1) (written level (.string text) ++ rest) = some (.string text, rest) := by
  rw [written_string, List.cons_append, readValue_string_open, readText_written, Option.map_some]
  simp only [String.ofList_toList]

/-- A number is read back as it was written. -/
lemma readValue_int (value : Int) (closes : Closes rest) :
    readValue (fuel + 1) (written level (.int value) ++ rest) = some (.int value, rest) := by
  cases value with
  | ofNat n =>
    obtain ⟨d, ds, digits, digit⟩ := exists_digits n
    rw [written_nonneg, digits, List.cons_append, readValue_digit digit, ← List.cons_append,
      ← digits, readNumber_toDigits false n closes]
    rfl
  | negSucc n =>
    obtain ⟨d, ds, digits, digit⟩ := exists_digits (n + 1)
    rw [written_negative, digits, List.cons_append, List.cons_append, readValue_minus digit,
      ← List.cons_append, ← digits, readNumber_toDigits true (n + 1) closes]
    rfl

/-- A value takes at least one step. -/
lemma exists_fuel (exact : value.Exact) (enough : (written level value).length ≤ fuel) :
    ∃ less, fuel = less + 1 := by
  obtain ⟨c, cs, starts, -⟩ := exists_written level exact
  refine Nat.exists_eq_add_one_of_ne_zero fun none => ?_
  rw [starts, none] at enough
  cases enough

/-- A value is read as it was written. The steps that are allowed bound the depth, and there are
fewer characters in a part of a value than in the value. -/
lemma readValue_written (exact : value.Exact) (distinct : value.Distinct)
    (enough : (written level value).length ≤ fuel) (closes : Closes rest) :
    readValue fuel (written level value ++ rest) = some (value, rest) := by
  -- A part of a value is read at its own depth, with fewer steps and with another rest.
  induction exact generalizing level fuel rest with
  | null =>
    obtain ⟨fuel, rfl⟩ := exists_fuel .null enough
    rw [written_null]
    rfl
  | bool value =>
    obtain ⟨fuel, rfl⟩ := exists_fuel (.bool value) enough
    cases value with
    | false =>
      rw [written_false]
      rfl
    | true =>
      rw [written_true]
      rfl
  | int value =>
    obtain ⟨fuel, rfl⟩ := exists_fuel (.int value) enough
    exact readValue_int value closes
  | string text =>
    obtain ⟨fuel, rfl⟩ := exists_fuel (.string text) enough
    exact readValue_string text rest
  | @array items all ih =>
    obtain ⟨fuel, rfl⟩ := exists_fuel (.array all) enough
    cases distinct with
    | array allDistinct =>
    cases items with
    | nil =>
      rw [written_array_nil]
      rfl
    | cons item items =>
      refine readValue_array item items (all item List.mem_cons_self) ?_ rest
      intro next mem rest closes
      refine ih next mem (allDistinct next mem) ?_ closes
      -- The line of an item is shorter than the array, by a bracket at least.
      have part := length_le_of_mem (List.mem_map_of_mem (f := itemLine (level + 1)) mem)
      rw [itemLine, List.length_append] at part
      rw [written_array, List.length_cons, List.length_append] at enough
      omega
  | @object fields all ih =>
    obtain ⟨fuel, rfl⟩ := exists_fuel (.object all) enough
    cases distinct with
    | object once allDistinct =>
    cases fields with
    | nil =>
      rw [written_object_nil]
      rfl
    | cons field fields =>
      rw [readValue_object field fields, mergeFields_eq once]
      intro next mem rest closes
      refine ih next mem (allDistinct next mem) ?_ closes
      have part := length_le_of_mem (List.mem_map_of_mem (f := fieldLine (level + 1)) mem)
      simp only [fieldLine, List.length_append, List.length_cons] at part
      rw [written_object, List.length_cons, List.length_append] at enough
      omega

/-- A value is read from a file as it was written there. -/
theorem parse?_render (exact : value.Exact) (distinct : value.Distinct) :
    parse? (render value ++ "\n") = some value := by
  have text : (render value ++ "\n").toList = written 0 value ++ ['\n'] := String.toList_append
  have enough : (written 0 value).length ≤ (written 0 value ++ ['\n']).length + 1 := by
    rw [List.length_append]
    omega
  rw [parse?, text, readValue_written exact distinct enough ⟨'\n', [], rfl, .inr rfl⟩]
  rfl

end Values

end ExportCover.Json
