import Mathlib.Data.List.Induction
import ExportCover.Proofs.Config.Table
import ExportCover.Json.Reader

/-!
# Objects without repeated keys

Where a text has a key twice in an object, the later value takes the place of the earlier one, so
that no object that was read has a key twice (`distinct_of_parse?`).
-/

namespace ExportCover.Json

/-- No object in the value has a key twice. -/
inductive Distinct : Json → Prop where
  | null : Distinct .null
  | bool (value : Bool) : Distinct (.bool value)
  | int (value : Int) : Distinct (.int value)
  | decimal (text : String) : Distinct (.decimal text)
  | string (text : String) : Distinct (.string text)
  | array {items : List Json} (all : ∀ item ∈ items, Distinct item) : Distinct (.array items)
  | object {fields : List (String × Json)} (once : (Config.keys fields).Nodup)
    (all : ∀ field ∈ fields, Distinct field.2) : Distinct (.object fields)

variable {read : List Char → Option (Json × List Char)} {rest cs : List Char} {value : Json}
  {fuel : Nat}

section Merging

/-- A field is set as a key of a configuration is. -/
lemma setField_eq (key : String) (value : Json) (fields : Config) :
    setField key value fields = fields.set key value := by
  induction fields with
  | nil => rfl
  | cons field rest ih => rw [setField, Config.set, ih]

/-- Fields are merged one after the other, and a later one replaces an earlier one. -/
lemma mergeFields_concat (fields : Config) (field : String × Json) :
    mergeFields (fields ++ [field]) = Config.set (mergeFields fields) field.1 field.2 := by
  rw [mergeFields, List.foldl_append, ← setField_eq]
  rfl

/-- Fields are put together as they are if no key stands there twice. -/
lemma mergeFields_eq {fields : Config} (once : fields.keys.Nodup) :
    mergeFields fields = fields := by
  induction fields using List.reverseRecOn with
  | nil => rfl
  | append_singleton fields field ih =>
    rw [Config.keys, List.map_append, List.map_singleton, ← List.concat_eq_append,
      List.nodup_concat] at once
    rw [mergeFields_concat, ih once.2, Config.set_of_notMem once.1]

/-- Fields that are put together have every key once, and what holds of all values still does. -/
lemma mergeFields_merged {P : Json → Prop} {fields : Config} (all : ∀ field ∈ fields, P field.2) :
    (Config.keys (mergeFields fields)).Nodup ∧ ∀ field ∈ mergeFields fields, P field.2 := by
  induction fields using List.reverseRecOn with
  | nil => exact ⟨List.nodup_nil, nofun⟩
  | append_singleton fields field ih =>
    obtain ⟨once, holds⟩ := ih fun other mem => all other (List.mem_append_left _ mem)
    rw [mergeFields_concat]
    refine ⟨Config.nodup_keys_set once, fun other mem => ?_⟩
    obtain rfl | mem := Config.eq_or_mem_of_mem_set mem
    · exact all field (by simp)
    · exact holds other mem

end Merging

section Soundness

variable {P : Json → Prop}

/-- What holds of every value that is read holds of the items of an array. -/
lemma forall_readItems (reads : ∀ {cs value rest}, read cs = some (value, rest) → P value)
    {items : List Json} (found : readItems read fuel cs = some (items, rest)) :
    ∀ item ∈ items, P item := by
  induction fuel generalizing cs items rest with
  | zero => cases found
  | succ fuel ih =>
    simp only [readItems, Option.bind_eq_bind, Option.bind_eq_some_iff] at found
    obtain ⟨⟨value, more⟩, here, found⟩ := found
    dsimp only at found
    split at found
    next =>
      simp only [Option.bind_eq_some_iff] at found
      obtain ⟨⟨values, _⟩, there, same⟩ := found
      cases same
      exact List.forall_mem_cons.mpr ⟨reads here, ih there⟩
    next =>
      cases found
      exact List.forall_mem_singleton.mpr (reads here)
    next => cases found

/-- What holds of every value that is read holds of the values of an object. -/
lemma forall_readFields (reads : ∀ {cs value rest}, read cs = some (value, rest) → P value)
    {fields : List (String × Json)} (found : readFields read fuel cs = some (fields, rest)) :
    ∀ field ∈ fields, P field.2 := by
  induction fuel generalizing cs fields rest with
  | zero => cases found
  | succ fuel ih =>
    rw [readFields] at found
    split at found
    next =>
      simp only [Option.bind_eq_bind, Option.bind_eq_some_iff] at found
      obtain ⟨⟨key, more⟩, -, found⟩ := found
      dsimp only at found
      split at found
      next =>
        simp only [Option.bind_eq_some_iff] at found
        obtain ⟨⟨value, more⟩, here, found⟩ := found
        dsimp only at found
        split at found
        next =>
          simp only [Option.bind_eq_some_iff] at found
          obtain ⟨⟨values, _⟩, there, same⟩ := found
          cases same
          exact List.forall_mem_cons.mpr ⟨reads here, ih there⟩
        next =>
          cases found
          exact List.forall_mem_singleton.mpr (reads here)
        next => cases found
      next => cases found
    next => cases found

/-- A number is a whole one or it is kept as it was written. -/
lemma distinct_of_readNumber {negative : Bool}
    (found : readNumber negative cs = some (value, rest)) : value.Distinct := by
  rw [readNumber.eq_def] at found
  dsimp only at found
  split at found
  -- A number goes on in the same way after a zero and after other digits.
  all_goals
    split at found
    next => cases found
    next =>
      split at found
      next =>
        cases found
        exact .int _
      next =>
        cases found
        exact .decimal _

/-- A word stands for one value. -/
lemma distinct_of_word {word : Option (List Char)} {meant : Json}
    (found : word.map (fun rest => (meant, rest)) = some (value, rest)) (distinct : meant.Distinct) :
    value.Distinct := by
  obtain ⟨_, _, same⟩ := Option.map_eq_some_iff.mp found
  cases same
  exact distinct

/-- No object that was read has a key twice. -/
lemma distinct_of_readValue (found : readValue fuel cs = some (value, rest)) : value.Distinct := by
  induction fuel generalizing cs value rest with
  | zero => cases found
  | succ fuel ih =>
    rw [readValue] at found
    split at found
    next =>
      obtain ⟨_, _, same⟩ := Option.map_eq_some_iff.mp found
      cases same
      exact .string _
    next =>
      split at found
      next =>
        cases found
        exact .array nofun
      next =>
        obtain ⟨⟨items, _⟩, read, same⟩ := Option.map_eq_some_iff.mp found
        cases same
        exact .array (forall_readItems ih read)
    next =>
      split at found
      next =>
        cases found
        exact .object List.nodup_nil nofun
      next =>
        obtain ⟨⟨fields, _⟩, read, same⟩ := Option.map_eq_some_iff.mp found
        cases same
        obtain ⟨once, all⟩ := mergeFields_merged (forall_readFields ih read)
        exact .object once all
    next => exact distinct_of_word found (.decimal _)
    next => exact distinct_of_readNumber found
    next => exact distinct_of_word found (.decimal _)
    next => exact distinct_of_word found (.decimal _)
    next => exact distinct_of_word found .null
    next => exact distinct_of_word found (.bool _)
    next => exact distinct_of_word found (.bool _)
    next => exact distinct_of_readNumber found

/-- No object that was read has a key twice. -/
theorem distinct_of_parse? {text : String} (found : parse? text = some value) :
    value.Distinct := by
  simp only [parse?, Option.bind_eq_bind, Option.bind_eq_some_iff] at found
  obtain ⟨⟨read, rest⟩, found, whole⟩ := found
  dsimp only at whole
  split at whole
  next =>
    cases whole
    exact distinct_of_readValue found
  next => cases whole

end Soundness

end ExportCover.Json
